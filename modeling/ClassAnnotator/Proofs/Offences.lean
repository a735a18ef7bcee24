import ClassAnnotator.Proofs.Places

/-! # Where flattening fails

A place offends when it holds a null, or a list with an element that is no scalar. A table is
flattened up to the first place that offends. The error names the path of this place, and a list
its first element that is no scalar. Nothing behind the place matters.
-/

namespace ClassAnnotator.Document

/-- The fault of a value that is no scalar. -/
inductive Faulty : Document → ScalarFault → Prop where
  | null : Faulty .null .null
  | list (items : List Document) : Faulty (.list items) .nested
  | table (members : List (String × Document)) : Faulty (.table members) .nested

/-- The error that the value at a path gives. A list is judged by its first element that is no
scalar. -/
inductive Offends (path : String) : Document → FlattenError → Prop where
  | null : Offends path .null (.noValue path .null)
  | element {before after : List Document} {item : Document} {fault : ScalarFault} :
      (∀ b ∈ before, b.isScalar = true) → Faulty item fault →
      Offends path (.list (before ++ item :: after)) (.badElement path fault)

/-- The places of a document up to the first one without a text. -/
structure FirstOffence (document : Document) (before : List (List String × Document))
    (names : List String) (leaf : Document) : Prop where
  reached : before ++ [(names, leaf)] <+: document.places
  texts_before : ∀ place ∈ before, place.2.hasString = true
  no_text : leaf.hasString = false

variable {document other leaf : Document} {members : List (String × Document)}
  {names : List String} {before : List (List String × Document)} {path : String}
  {e e' : FlattenError}

theorem scalarText_eq_error_iff {fault : ScalarFault} :
    scalarText leaf = .error fault ↔ Faulty leaf fault := by
  constructor
  · intro h
    cases leaf <;> cases h <;> constructor
  · rintro (_ | _ | _) <;> rfl

theorem listText_eq_error_iff {items : List Document} {fault : ScalarFault} :
    listText items = .error fault ↔ ∃ before item after, items = before ++ item :: after ∧
      (∀ b ∈ before, b.isScalar = true) ∧ Faulty item fault := by
  have hscalar : ∀ item, (∃ text, scalarText item = .ok text) ↔ item.isScalar = true := by
    simp [scalarText_eq_ok_iff]
  simp only [listText, Except.map_eq_error_iff, Except.mapM_eq_error_iff hscalar,
    scalarText_eq_error_iff]

theorem leafEntry_eq_error_iff (hleaf : ∀ members, leaf ≠ .table members) :
    leafEntry (path, leaf) = .error e ↔ Offends path leaf e := by
  rw [leafEntry, Except.map_eq_error_iff]
  cases leaf with
  | table members => exact absurd rfl (hleaf members)
  | bool b | number n | text s => exact ⟨nofun, nofun⟩
  | null =>
    constructor
    · rintro ⟨⟩
      exact .null
    · rintro ⟨⟩
      rfl
  | list items =>
    rw [leafText, Except.mapError_eq_error_iff]
    constructor
    · rintro ⟨fault, h, rfl⟩
      obtain ⟨before, item, after, rfl, hb, hf⟩ := listText_eq_error_iff.mp h
      exact .element hb hf
    · rintro (_ | ⟨hb, hf⟩)
      exact ⟨_, listText_eq_error_iff.mpr ⟨_, _, _, rfl, hb, hf⟩, rfl⟩

theorem exists_offends (hleaf : ∀ members, leaf ≠ .table members) (h : leaf.hasString = false)
    (path : String) : ∃ e, Offends path leaf e := by
  cases he : leafEntry (path, leaf) with
  | ok entry =>
    have hs := ((leafEntry_eq_ok_iff_hasString _ _).mp he).1
    rw [h] at hs
    cases hs
  | error e => exact ⟨e, (leafEntry_eq_error_iff hleaf).mp he⟩

theorem Offends.unique (h : Offends path leaf e) (h' : Offends path leaf e') : e = e' := by
  have hleaf : ∀ members, leaf ≠ .table members := by
    rintro members rfl
    cases h
  have he := (leafEntry_eq_error_iff hleaf).mpr h
  exact Except.error.inj (he.symm.trans ((leafEntry_eq_error_iff hleaf).mpr h'))

theorem Offends.no_text (h : Offends path leaf e) : leaf.hasString = false := by
  cases h with
  | null => rfl
  | element _ hf => cases hf <;> simp [hasString, isScalar]

namespace FirstOffence

variable (h : document.FirstOffence before names leaf)
include h

theorem mem_places : (names, leaf) ∈ document.places := h.reached.subset (by simp)

theorem not_table : ∀ members, leaf ≠ .table members := (leads_of_mem_places h.mem_places).2

theorem of_prefix (ho : before ++ [(names, leaf)] <+: other.places) :
    other.FirstOffence before names leaf :=
  ⟨ho, h.texts_before, h.no_text⟩

end FirstOffence

/-- A table is flattened up to its first offence. -/
theorem flatten_table_eq_error_iff : flatten (.table members) = .error e ↔
    ∃ before names leaf, FirstOffence (.table members) before names leaf ∧
      Offends (".".intercalate names) leaf e := by
  have htext : ∀ leaf : String × Document,
      (∃ entry, leafEntry leaf = .ok entry) ↔ leaf.2.hasString = true := by
    simp [leafEntry_eq_ok_iff_hasString]
  rw [flatten, flattenTop_eq, insertLeaves, Except.map_eq_error_iff, Except.mapM_eq_error_iff htext,
    leaves_table]
  constructor
  · rintro ⟨before, ⟨path, leaf⟩, after, hl, hb, he⟩
    obtain ⟨before, rest, hp, rfl, hrest⟩ := List.map_eq_append_iff.mp hl
    obtain ⟨⟨names, leaf⟩, after, rfl, hplace, rfl⟩ := List.map_eq_cons_iff.mp hrest
    obtain ⟨rfl, rfl⟩ := Prod.mk.inj hplace
    have hm : (names, leaf) ∈ places (.table members) := by simp [hp]
    have ho := (leafEntry_eq_error_iff (leads_of_mem_places hm).2).mp he
    exact ⟨before, names, leaf,
      ⟨⟨after, by simp [hp]⟩, List.forall_mem_map.mp hb, ho.no_text⟩, ho⟩
  · rintro ⟨before, names, leaf, h, ho⟩
    obtain ⟨after, hp⟩ := h.reached
    rw [← hp, List.append_assoc, List.map_append]
    exact ⟨_, _, _, rfl, List.forall_mem_map.mpr h.texts_before,
      (leafEntry_eq_error_iff h.not_table).mpr ho⟩

theorem flatten_eq_notATable_iff :
    document.flatten = .error .notATable ↔ ∀ members, document ≠ .table members := by
  cases document with
  | table members =>
    constructor
    · intro h
      obtain ⟨_, _, _, _, ho⟩ := flatten_table_eq_error_iff.mp h
      cases ho
    · intro h
      exact absurd rfl (h members)
  | _ => simp [flatten]

/-- Names lead to every place of a table, so what has a place of a table is a table. -/
theorem exists_table_of_prefix (h : FirstOffence (.table members) before names leaf)
    (ho : before ++ [(names, leaf)] <+: other.places) : ∃ members, other = .table members := by
  have hnames : names ≠ [] := by
    have hm := h.mem_places
    rw [places] at hm
    obtain ⟨name, _, rest, _, rfl, _⟩ := mem_placesOf.mp hm
    exact List.cons_ne_nil name rest
  have hm : (names, leaf) ∈ other.places := ho.subset (by simp)
  cases other with
  | table members => exact ⟨members, rfl⟩
  | _ => exact absurd (Prod.mk.inj (List.mem_singleton.mp hm)).1 hnames

/-- What is no table is refused as such. A table is refused exactly for its first place without a
text, with the error that the value there gives under its path. The message names this path, and
tells a value that is null from a list with an element that is null, or nested. Another document
that has the same places so far is refused with the same error, so with the same message. -/
theorem flatten_fails_at_first_offence (document : Document) :
    (document.flatten = .error .notATable ↔ ∀ members, document ≠ .table members) ∧
    FlattenError.notATable.message = "expected a table of properties at the top level" ∧
    ∀ members, document = .table members →
      (∀ e, document.flatten = .error e ↔ ∃ before names leaf,
        document.FirstOffence before names leaf ∧ Offends (".".intercalate names) leaf e) ∧
      ∀ before names leaf, document.FirstOffence before names leaf →
        let path := ".".intercalate names
        ∃ e, document.flatten = .error e ∧
          (leaf = .null → e.message =
            "property '" ++ path ++ "' has no value: " ++ "null is not a valid property value") ∧
          (∀ front item rest, leaf = .list (front ++ item :: rest) →
            (∀ b ∈ front, b.isScalar = true) →
            (item = .null → e.message = "array element of '" ++ path ++ "' must be a scalar: " ++
              "null is not a valid property value") ∧
            ((∃ items, item = .list items) ∨ (∃ members, item = .table members) → e.message =
              "array element of '" ++ path ++ "' must be a scalar: " ++
                "nested value is not a scalar")) ∧
          ∀ other : Document, before ++ [(names, leaf)] <+: other.places →
            other.flatten = .error e := by
  refine ⟨flatten_eq_notATable_iff, rfl, ?_⟩
  rintro members rfl
  refine ⟨fun e => flatten_table_eq_error_iff, fun before names leaf h => ?_⟩
  obtain ⟨e, he⟩ := exists_offends h.not_table h.no_text (".".intercalate names)
  refine ⟨e, flatten_table_eq_error_iff.mpr ⟨before, names, leaf, h, he⟩, ?_, ?_, ?_⟩
  · rintro rfl
    rw [he.unique .null]
    rfl
  · rintro front item rest rfl hfront
    constructor
    · rintro rfl
      rw [he.unique (.element hfront .null)]
      rfl
    · rintro (⟨items, rfl⟩ | ⟨members, rfl⟩)
      · rw [he.unique (.element hfront (.list items))]
        rfl
      · rw [he.unique (.element hfront (.table members))]
        rfl
  · intro other ho
    obtain ⟨others, rfl⟩ := exists_table_of_prefix h ho
    exact flatten_table_eq_error_iff.mpr ⟨before, names, leaf, h.of_prefix ho, he⟩

theorem flatten_fails_at_first_offence_of_two_tables :
    let leaf : Document := .list [.bool true, .list [], .null]
    let members := [("a", .table [("b.c", .text "x"), ("d", leaf)]), ("e", .null)]
    let others := [("e", .table []), ("a", .table [("b.c", .text "x"), ("d", leaf), ("f", .null)])]
    flatten (.table members) = .error (.badElement "a.d" .nested) ∧
      ∃ e, flatten (.table members) = .error e ∧ flatten (.table others) = .error e ∧
        e.message = "array element of 'a.d' must be a scalar: nested value is not a scalar" := by
  intro leaf members others
  have h : FirstOffence (.table members) [(["a", "b.c"], .text "x")] ["a", "d"] leaf :=
    ⟨⟨[(["e"], .null)], rfl⟩, by simp [hasString, isScalar], rfl⟩
  have hleaf : Offends "a.d" leaf (.badElement "a.d" .nested) :=
    @Offends.element _ [.bool true] [.null] _ _ (by simp [isScalar]) (.list [])
  obtain ⟨-, -, htable⟩ := flatten_fails_at_first_offence (.table members)
  obtain ⟨herror, hfirst⟩ := htable members rfl
  obtain ⟨e, he, -, hlist, hother⟩ := hfirst _ _ _ h
  obtain ⟨-, hnested⟩ := hlist [.bool true] (.list []) [.null] rfl (by simp [isScalar])
  refine ⟨(herror _).mpr ⟨_, _, _, h, hleaf⟩, e, he, hother _ ⟨[(["a", "f"], .null)], rfl⟩, ?_⟩
  exact hnested (.inl ⟨[], rfl⟩)

end ClassAnnotator.Document
