import ClassAnnotator.Document.Flatten
import ClassAnnotator.Proofs.Except
import ClassAnnotator.Proofs.Insertion

/-! # Leaves of a document

The leaves of a document are the values in its tables that are no tables, each under the path of
names that leads to it. Flattening reads the leaves in their order and inserts what they say, so a
leaf whose path no other leaf has is found again under this path.
-/

namespace ClassAnnotator.Document

mutual

/-- The leaves of a value that stands under `path`, in their order. -/
def leavesAt (path : String) : Document → List (String × Document)
  | .table members => leavesOf path members
  | value => [(path, value)]

def leavesOf (path : String) : List (String × Document) → List (String × Document)
  | [] => []
  | (name, value) :: rest => leavesAt (path ++ "." ++ name) value ++ leavesOf path rest

end

def leaves : Document → List (String × Document)
  | .table members => members.flatMap fun (name, value) => leavesAt name value
  | _ => []

def leafText : String × Document → Except FlattenError String
  | (path, .list items) => (listText items).mapError (.badElement path)
  | (path, value) => value.scalarText.mapError (.noValue path)

def leafEntry (leaf : String × Document) : Except FlattenError (String × String) :=
  (leafText leaf).map (leaf.1, ·)

/-- The entries of leaves, inserted into a configuration. -/
def insertLeaves (p : Properties) (l : List (String × Document)) :
    Except FlattenError Properties :=
  (l.mapM leafEntry).map p.insertAll

variable {p : Properties} {document : Document} {leaf : String × Document} {e : String × String}
  {l : List (String × Document)} {entries : List (String × String)}

theorem insertLeaves_append (p : Properties) (l m : List (String × Document)) :
    insertLeaves p (l ++ m) = (insertLeaves p l).bind fun q => insertLeaves q m := by
  unfold insertLeaves
  rw [List.mapM_append]
  cases l.mapM leafEntry with
  | error e => rfl
  | ok a =>
    change ((m.mapM leafEntry).bind fun b => .ok (a ++ b)).map p.insertAll =
      (m.mapM leafEntry).map (p.insertAll a).insertAll
    cases m.mapM leafEntry with
    | error e => rfl
    | ok b => exact congrArg Except.ok (p.insertAll_append a b)

mutual

theorem flattenAt_eq (p : Properties) (path : String) :
    (value : Document) → flattenAt p path value = insertLeaves p (leavesAt path value)
  | .table members => by rw [flattenAt, leavesAt, flattenMembers_eq]
  | .list items => by
    simp only [flattenAt, leavesAt, insertLeaves, List.mapM_cons, List.mapM_nil, leafEntry,
      leafText]
    cases listText items <;> rfl
  | .null | .bool b | .number n | .text s => by simp only [flattenAt, leavesAt]; rfl

theorem flattenMembers_eq (p : Properties) (path : String) :
    (members : List (String × Document)) →
      flattenMembers p path members = insertLeaves p (leavesOf path members)
  | [] => by rw [flattenMembers, leavesOf]; rfl
  | (name, value) :: rest => by
    rw [flattenMembers, leavesOf, insertLeaves_append, flattenAt_eq]
    cases insertLeaves p (leavesAt (path ++ "." ++ name) value) with
    | error e => rfl
    | ok q => exact flattenMembers_eq q path rest

end

theorem flattenTop_eq (p : Properties) (members : List (String × Document)) :
    flattenTop p members = insertLeaves p (leaves (.table members)) := by
  induction members generalizing p with
  | nil => rfl
  | cons member rest ih =>
    obtain ⟨name, value⟩ := member
    rw [flattenTop, leaves, List.flatMap_cons, insertLeaves_append, flattenAt_eq]
    cases insertLeaves p (leavesAt name value) with
    | error e => rfl
    | ok q => exact ih q

/-- A document that is flattened says the entries of its leaves, one after the other. -/
theorem flatten_eq_ok_iff :
    document.flatten = .ok p ↔ (∃ members, document = .table members) ∧
      ∃ entries, document.leaves.mapM leafEntry = .ok entries ∧ p = .ofList entries := by
  cases document with
  | table members =>
    rw [flatten, flattenTop_eq, insertLeaves, Except.map_eq_ok_iff]
    simp [eq_comm (a := p), Properties.ofList]
  | _ => simp [flatten]

theorem leafEntry_eq_ok_iff : leafEntry leaf = .ok e ↔ leafText leaf = .ok e.2 ∧ e.1 = leaf.1 := by
  obtain ⟨path, text⟩ := e
  rw [leafEntry, Except.map_eq_ok_iff]
  simp [and_comm, eq_comm (b := path)]

theorem path_of_leafEntry (h : leafEntry leaf = .ok e) : e.1 = leaf.1 :=
  (leafEntry_eq_ok_iff.mp h).2

theorem mapM_filter_leafEntry (path : String) (h : l.mapM leafEntry = .ok entries) :
    (l.filter (·.1 = path)).mapM leafEntry = .ok (entries.filter (·.1 = path)) := by
  induction l generalizing entries with
  | nil =>
    cases h
    rfl
  | cons leaf l ih =>
    obtain ⟨e, rest, he, hrest, rfl⟩ := Except.mapM_cons_eq_ok_iff.mp h
    have hpath := path_of_leafEntry he
    by_cases hp : leaf.1 = path
    · rw [List.filter_cons_of_pos (by simpa using hp),
        List.filter_cons_of_pos (by simpa [hpath] using hp)]
      exact Except.mapM_cons_eq_ok_iff.mpr ⟨e, _, he, ih hrest, rfl⟩
    · rw [List.filter_cons_of_neg (by simpa using hp),
        List.filter_cons_of_neg (by simpa [hpath] using hp), ih hrest]

theorem mem_entries_of_leaf (h : document.flatten = .ok p)
    (hleaf : document.leaves.filter (·.1 = leaf.1) = [leaf]) (he : leafEntry leaf = .ok e) :
    e ∈ p.entries := by
  obtain ⟨-, entries, hentries, rfl⟩ := flatten_eq_ok_iff.mp h
  have hfilter := mapM_filter_leafEntry leaf.1 hentries
  have honly : [leaf].mapM leafEntry = .ok [e] :=
    Except.mapM_cons_eq_ok_iff.mpr ⟨e, [], he, rfl, rfl⟩
  rw [hleaf, honly] at hfilter
  refine Properties.get?_eq_some_iff.mp ?_
  have hpath := path_of_leafEntry he
  rw [Properties.get?_ofList, ← Association.last?_filter, hpath, ← Except.ok.inj hfilter]
  simp [Association.last?, Association.get?, hpath]

end ClassAnnotator.Document
