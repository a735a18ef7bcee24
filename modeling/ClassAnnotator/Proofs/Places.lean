import ClassAnnotator.Proofs.Leaves

/-! # Places in a document

Names lead from a document through nested tables to the values in it. A document can be flattened
when it is a table in which no names lead to a null or to a list with an element that is no scalar.
Every value that is no table then gives an entry, under the names that lead to it.
-/

namespace ClassAnnotator.Document

/-- The names lead from a value through nested tables to another one. -/
inductive Leads : Document → List String → Document → Prop where
  | here (value : Document) : Leads value [] value
  | through {members : List (String × Document)} {name : String} {value target : Document}
      {names : List String} : (name, value) ∈ members → Leads value names target →
      Leads (.table members) (name :: names) target

mutual

/-- The values in a document that are no tables, in their order, with the names that lead there. -/
def places : Document → List (List String × Document)
  | .table members => placesOf members
  | value => [([], value)]

def placesOf : List (String × Document) → List (List String × Document)
  | [] => []
  | (name, value) :: rest =>
    (places value).map (fun (names, leaf) => (name :: names, leaf)) ++ placesOf rest

end

def isScalar : Document → Bool
  | .bool _ | .number _ | .text _ => true
  | .null | .list _ | .table _ => false

def scalarString : Document → String
  | .bool b => if b then "true" else "false"
  | .number n => n.text
  | .text s => s
  | _ => ""

/-- The value is a scalar or a list of scalars. -/
def hasString : Document → Bool
  | .list items => items.all isScalar
  | value => value.isScalar

/-- The text of a scalar, or the texts of the elements of a list with commas between them. -/
def leafString : Document → String
  | .list items => ",".intercalate (items.map scalarString)
  | value => value.scalarString

def placeEntry : List String × Document → String × String
  | (names, leaf) => (".".intercalate names, leaf.leafString)

variable {document value leaf : Document} {members : List (String × Document)} {name : String}
  {names : List String} {p : Properties}

theorem mem_placesOf : (names, leaf) ∈ placesOf members ↔
    ∃ name value rest, (name, value) ∈ members ∧ names = name :: rest ∧
      (rest, leaf) ∈ places value := by
  induction members with
  | nil => simp [placesOf]
  | cons member members ih =>
    obtain ⟨name, value⟩ := member
    rw [placesOf, List.mem_append, ih, List.mem_map]
    constructor
    · rintro (⟨⟨rest, target⟩, hm, he⟩ | ⟨name', value', rest, hm, hn, ht⟩)
      · obtain ⟨rfl, rfl⟩ := Prod.mk.inj he
        exact ⟨name, value, rest, List.mem_cons_self .., rfl, hm⟩
      · exact ⟨name', value', rest, List.mem_cons_of_mem _ hm, hn, ht⟩
    · rintro ⟨name', value', rest, hm, rfl, ht⟩
      rcases List.mem_cons.mp hm with he | hm
      · obtain ⟨rfl, rfl⟩ := Prod.mk.inj he
        exact .inl ⟨_, ht, rfl⟩
      · exact .inr ⟨name', value', rest, hm, rfl, ht⟩

theorem mem_places_of_leads (h : Leads document names leaf)
    (hleaf : ∀ members, leaf ≠ .table members) : (names, leaf) ∈ places document := by
  induction h with
  | here value =>
    cases value with
    | table members => exact absurd rfl (hleaf members)
    | _ => exact List.mem_singleton_self _
  | through hm _ ih =>
    rw [places]
    exact mem_placesOf.mpr ⟨_, _, _, hm, rfl, ih hleaf⟩

theorem leads_of_mem_places (h : (names, leaf) ∈ places document) :
    Leads document names leaf ∧ ∀ members, leaf ≠ .table members := by
  induction names generalizing document with
  | nil =>
    cases document with
    | table members =>
      rw [places] at h
      obtain ⟨_, _, _, _, hn, _⟩ := mem_placesOf.mp h
      cases hn
    | _ =>
      obtain ⟨-, rfl⟩ := Prod.mk.inj (List.mem_singleton.mp h)
      exact ⟨.here _, fun _ => Document.noConfusion⟩
  | cons name names ih =>
    cases document with
    | table members =>
      rw [places] at h
      obtain ⟨_, value, _, hm, hn, ht⟩ := mem_placesOf.mp h
      obtain ⟨rfl, rfl⟩ := List.cons.inj hn
      obtain ⟨hl, hleaf⟩ := ih ht
      exact ⟨.through hm hl, hleaf⟩
    | _ => cases (Prod.mk.inj (List.mem_singleton.mp h)).1

theorem mem_places_iff : (names, leaf) ∈ places document ↔
    Leads document names leaf ∧ ∀ members, leaf ≠ .table members :=
  ⟨leads_of_mem_places, fun h => mem_places_of_leads h.1 h.2⟩

mutual

theorem leavesAt_eq (path : String) : (document : Document) →
    leavesAt path document =
      (places document).map fun (names, leaf) => (".".intercalate (path :: names), leaf)
  | .table members => by rw [leavesAt, places, leavesOf_eq]
  | .null | .bool b | .number n | .text s | .list items => by
    simp [leavesAt, places]

theorem leavesOf_eq (path : String) : (members : List (String × Document)) →
    leavesOf path members =
      (placesOf members).map fun (names, leaf) => (".".intercalate (path :: names), leaf)
  | [] => rfl
  | (name, value) :: rest => by
    rw [leavesOf, placesOf, leavesAt_eq, leavesOf_eq, List.map_append, List.map_map]
    simp [Function.comp_def]

end

/-- The path of a leaf is made of the names that lead to it, with points between them. -/
theorem leaves_table (members : List (String × Document)) :
    leaves (.table members) =
      (places (.table members)).map fun (names, leaf) => (".".intercalate names, leaf) := by
  rw [places]
  induction members with
  | nil => rfl
  | cons member members ih =>
    obtain ⟨name, value⟩ := member
    have hvalue := leavesAt_eq name value
    rw [leaves, List.flatMap_cons, ← leaves, ih, placesOf, List.map_append, List.map_map]
    exact congrArg (· ++ _) hvalue

theorem scalarText_eq_ok_iff (value : Document) (text : String) :
    scalarText value = .ok text ↔ value.isScalar = true ∧ text = value.scalarString := by
  cases value <;> simp [scalarText, isScalar, scalarString, eq_comm]

theorem listText_eq_ok_iff {items : List Document} {text : String} :
    listText items = .ok text ↔ items.all isScalar = true ∧ text = leafString (.list items) := by
  rw [listText, Except.map_eq_ok_iff]
  simp only [Except.mapM_eq_ok_iff scalarText_eq_ok_iff]
  constructor
  · rintro ⟨_, ⟨hall, rfl⟩, rfl⟩
    exact ⟨hall, rfl⟩
  · rintro ⟨hall, rfl⟩
    exact ⟨_, ⟨hall, rfl⟩, rfl⟩

theorem leafText_eq_ok_iff (leaf : String × Document) (text : String) :
    leafText leaf = .ok text ↔ leaf.2.hasString = true ∧ text = leaf.2.leafString := by
  obtain ⟨path, value⟩ := leaf
  cases value with
  | list items => exact Except.mapError_eq_ok_iff.trans listText_eq_ok_iff
  | _ =>
    simp only [leafText, Except.mapError_eq_ok_iff, scalarText_eq_ok_iff, hasString, leafString]

theorem leafEntry_eq_ok_iff_hasString (leaf : String × Document) (e : String × String) :
    leafEntry leaf = .ok e ↔ leaf.2.hasString = true ∧ e = (leaf.1, leaf.2.leafString) := by
  obtain ⟨path, text⟩ := e
  rw [leafEntry_eq_ok_iff, leafText_eq_ok_iff, Prod.mk.injEq, and_assoc, and_comm (a := path = _)]

/-- A document that can be flattened: a table in which no null is reached, and no list with an
element that is no scalar. -/
structure Flat (document : Document) : Prop where
  table : ∃ members, document = .table members
  no_null : ∀ names, ¬ document.Leads names .null
  scalars : ∀ names items, document.Leads names (.list items) → ∀ item ∈ items,
    item.isScalar = true

theorem flat_iff : document.Flat ↔ (∃ members, document = .table members) ∧
    ∀ place ∈ document.places, place.2.hasString = true := by
  constructor
  · rintro ⟨ht, hn, hs⟩
    refine ⟨ht, fun ⟨names, leaf⟩ hm => ?_⟩
    obtain ⟨hl, hleaf⟩ := leads_of_mem_places hm
    cases leaf with
    | null => exact absurd hl (hn names)
    | list items => exact List.all_eq_true.mpr (hs names items hl)
    | table members => exact absurd rfl (hleaf members)
    | bool b | number n | text s => rfl
  · rintro ⟨ht, hp⟩
    refine ⟨ht, fun names hl => ?_, fun names items hl => ?_⟩
    · have hm := mem_places_of_leads hl fun _ => Document.noConfusion
      exact Bool.noConfusion (hp _ hm)
    · have hm := mem_places_of_leads hl fun _ => Document.noConfusion
      exact List.all_eq_true.mp (hp _ hm)

theorem flatten_eq_ok_iff_flat : document.flatten = .ok p ↔
    document.Flat ∧ p = .ofList (document.places.map placeEntry) := by
  rw [flatten_eq_ok_iff, flat_iff, and_assoc]
  refine and_congr_right fun ⟨members, hm⟩ => ?_
  subst hm
  rw [leaves_table]
  simp only [Except.mapM_eq_ok_iff leafEntry_eq_ok_iff_hasString, List.all_map, List.map_map]
  constructor
  · rintro ⟨_, ⟨hall, rfl⟩, rfl⟩
    exact ⟨fun place hm => List.all_eq_true.mp hall place hm, rfl⟩
  · rintro ⟨hall, rfl⟩
    exact ⟨_, ⟨List.all_eq_true.mpr hall, rfl⟩, rfl⟩

/-- A document can be flattened exactly when it is flat. Then the configuration has the entries of
its places, each path where it occurs first and with the text that it is given last. The places are
what names lead to, except for tables. A table without members adds nothing, wherever it stands, and
a list without elements adds an empty text. -/
theorem flatten_eq_collapse_places (document : Document) :
    ((∃ p, document.flatten = .ok p) ↔ document.Flat) ∧
    (∀ p, document.flatten = .ok p ↔ document.Flat ∧
      p.entries = Association.collapse (document.places.map placeEntry)) ∧
    (∀ names leaf, (names, leaf) ∈ document.places ↔
      document.Leads names leaf ∧ ∀ members, leaf ≠ .table members) ∧
    (∀ p path, flattenAt p path (.table []) = .ok p) ∧
    ∀ p path, flattenAt p path (.list []) = .ok (p.insert path "") := by
  refine ⟨?_, fun p => ?_, fun names leaf => mem_places_iff, fun p path => rfl, fun p path => rfl⟩
  · constructor
    · rintro ⟨p, h⟩
      exact (flatten_eq_ok_iff_flat.mp h).1
    · intro h
      exact ⟨_, flatten_eq_ok_iff_flat.mpr ⟨h, rfl⟩⟩
  · rw [flatten_eq_ok_iff_flat]
    refine and_congr_right fun _ => ?_
    constructor
    · rintro rfl
      exact Properties.entries_ofList _
    · intro h
      exact Properties.ext_entries (h.trans (Properties.entries_ofList _).symm)

example :
    flatten (.table
      [("a.b", .number (.integer 1)), ("", .table [("", .bool true)]),
        ("a", .table
          [("c", .list []), ("e", .table []), ("b", .list [.text "x", .bool false])])]) =
      .ok (.ofList [("a.b", "x,false"), (".", "true"), ("a.c", "")]) := rfl

end ClassAnnotator.Document
