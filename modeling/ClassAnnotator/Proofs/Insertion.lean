import ClassAnnotator.Proofs.FirstOccurrence
import ClassAnnotator.Properties
import Mathlib.Data.List.Nodup

/-! # Inserting pairs one after the other

However often keys are repeated, each one sits where it occurs first and has the value that it was
given last. So a configuration is rebuilt by inserting its entries, and inserting pairs into it is
inserting them after its entries.
-/

namespace ClassAnnotator

namespace Association

variable {α β : Type*} [DecidableEq α] {key : α} {pairs : List (α × β)}

/-- The value of the last pair with the given key. -/
def last? (key : α) (pairs : List (α × β)) : Option β := get? key pairs.reverse

/-- Each key at its first occurrence, with the value of its last one. -/
def collapse (pairs : List (α × β)) : List (α × β) :=
  (pairs.map Prod.fst).eraseDups.filterMap fun key => (last? key pairs).map (key, ·)

theorem last?_concat (key : α) (pairs : List (α × β)) (e : α × β) :
    last? key (pairs ++ [e]) = if e.1 = key then some e.2 else last? key pairs := by
  simp [last?, get?]

theorem last?_filter (key : α) (pairs : List (α × β)) :
    last? key (pairs.filter (·.1 = key)) = last? key pairs := by
  induction pairs using List.reverseRecOn with
  | nil => rfl
  | append_singleton pairs e ih =>
    rw [List.filter_append, last?_concat, ← ih]
    by_cases h : e.1 = key
    · rw [List.filter_cons_of_pos (by simpa using h), List.filter_nil, last?_concat]
    · rw [List.filter_cons_of_neg (by simpa using h), List.filter_nil, List.append_nil, if_neg h]

theorem last?_eq_get? (h : (pairs.map Prod.fst).Nodup) : last? key pairs = get? key pairs := by
  have hr : (pairs.reverse.map Prod.fst).Nodup := by
    rw [List.map_reverse]
    exact List.nodup_reverse.mpr h
  refine Option.ext fun value => ?_
  rw [last?, get?_eq_some_iff hr, get?_eq_some_iff h, List.mem_reverse]

end Association

namespace Properties

variable {p q : Properties}

@[ext] theorem ext_entries (h : p.entries = q.entries) : p = q := by
  cases p
  cases q
  congr

theorem keys_insert (p : Properties) (key value : String) :
    (p.insert key value).keys = if key ∈ p.keys then p.keys else p.keys ++ [key] :=
  Association.keys_put key value p.entries

theorem insertAll_append (p : Properties) (pairs more : List (String × String)) :
    p.insertAll (pairs ++ more) = (p.insertAll pairs).insertAll more :=
  List.foldl_append

theorem insertAll_concat (p : Properties) (pairs : List (String × String)) (e : String × String) :
    p.insertAll (pairs ++ [e]) = (p.insertAll pairs).insert e.1 e.2 :=
  insertAll_append p pairs [e]

theorem keys_ofList (pairs : List (String × String)) :
    (ofList pairs).keys = (pairs.map Prod.fst).eraseDups := by
  induction pairs using List.reverseRecOn with
  | nil => rfl
  | append_singleton pairs e ih =>
    rw [ofList, insertAll_concat, ← ofList, keys_insert, ih, List.map_append, List.map_singleton,
      eraseDups_concat]
    simp only [List.mem_eraseDups]

theorem get?_ofList (key : String) (pairs : List (String × String)) :
    (ofList pairs).get? key = Association.last? key pairs := by
  induction pairs using List.reverseRecOn with
  | nil => rfl
  | append_singleton pairs e ih =>
    rw [ofList, insertAll_concat, ← ofList, get?_insert, ih, Association.last?_concat]

theorem entries_eq_filterMap (p : Properties) :
    p.entries = p.keys.filterMap fun key => (p.get? key).map (key, ·) := by
  rw [keys, List.filterMap_map, List.filterMap_congr (g := some), List.filterMap_some]
  intro e he
  simp [get?_eq_some_iff.mpr he]

theorem entries_ofList (pairs : List (String × String)) :
    (ofList pairs).entries = Association.collapse pairs := by
  rw [entries_eq_filterMap, keys_ofList]
  simp only [get?_ofList]
  rfl

theorem eq_of_keys_of_get? (hk : p.keys = q.keys) (hv : ∀ key, p.get? key = q.get? key) :
    p = q := by
  apply ext_entries
  rw [p.entries_eq_filterMap, q.entries_eq_filterMap, hk]
  simp only [hv]

theorem ofList_entries (p : Properties) : ofList p.entries = p := by
  apply eq_of_keys_of_get?
  · rw [keys_ofList]
    exact eraseDups_of_nodup p.nodup_keys
  · intro key
    rw [get?_ofList]
    exact Association.last?_eq_get? p.nodup_keys

theorem entries_ofList_of_nodup {pairs : List (String × String)}
    (h : (pairs.map Prod.fst).Nodup) : (ofList pairs).entries = pairs :=
  congrArg entries (ofList_entries ⟨pairs, h⟩)

theorem insertAll_eq_ofList (p : Properties) (pairs : List (String × String)) :
    p.insertAll pairs = ofList (p.entries ++ pairs) := by
  rw [ofList, insertAll_append, ← ofList, ofList_entries]

end Properties

end ClassAnnotator
