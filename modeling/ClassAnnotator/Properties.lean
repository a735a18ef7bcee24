import ClassAnnotator.Association

/-! # The flat configuration

A list of entries with distinct keys, in the order in which the keys were first inserted.
-/

namespace ClassAnnotator

/-- Texts by key, in the order of first insertion. -/
structure Properties where
  entries : List (String × String)
  nodup_keys : (entries.map Prod.fst).Nodup

namespace Properties

def empty : Properties := ⟨[], List.nodup_nil⟩

/-- Set `key` to `value`; a key that is present keeps its place. -/
def insert (p : Properties) (key value : String) : Properties :=
  ⟨Association.put key value p.entries, Association.nodup_keys_put p.nodup_keys⟩

def insertAll (p : Properties) (pairs : List (String × String)) : Properties :=
  pairs.foldl (fun q (k, v) => q.insert k v) p

def ofList (pairs : List (String × String)) : Properties :=
  empty.insertAll pairs

def get? (p : Properties) (key : String) : Option String :=
  Association.get? key p.entries

def keys (p : Properties) : List String :=
  p.entries.map Prod.fst

def size (p : Properties) : Nat :=
  p.entries.length

def isEmpty (p : Properties) : Bool :=
  p.entries.isEmpty

/-- The same keys with the same values, in any order. -/
def sameEntries (p q : Properties) : Bool :=
  p.size == q.size && p.entries.all fun (k, v) => q.get? k == some v

@[simp] theorem entries_empty : empty.entries = [] := rfl

@[simp] theorem entries_insert (p : Properties) (key value : String) :
    (p.insert key value).entries = Association.put key value p.entries := rfl

theorem get?_insert (p : Properties) (key value k : String) :
    (p.insert key value).get? k = if key = k then some value else p.get? k :=
  Association.get?_put key k value p.entries

theorem get?_eq_some_iff {p : Properties} {key value : String} :
    p.get? key = some value ↔ (key, value) ∈ p.entries :=
  Association.get?_eq_some_iff p.nodup_keys

theorem value_unique {p : Properties} {key value value' : String} (h : (key, value) ∈ p.entries)
    (h' : (key, value') ∈ p.entries) : value = value' :=
  Option.some.inj ((get?_eq_some_iff.mpr h).symm.trans (get?_eq_some_iff.mpr h'))

end Properties

end ClassAnnotator
