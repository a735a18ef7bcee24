import ClassAnnotator.Proofs.Described
import ClassAnnotator.Proofs.Grammar
import ClassAnnotator.Proofs.Unwrapping
import Mathlib.Data.List.Forall2

/-! # Options made of words

When the options of flags are named by words, and their values are words or lists of words, every
annotation is written by the grammar. What is read from it are the names and the elements of the
settings that the flags collect.
-/

namespace ClassAnnotator

open Text Grammar

variable {w : List Char} {value : String} {y : Setting}

theorem Text.range_of_isWordChar {c : Char} (h : isWordChar c = true) :
    0x30 ≤ c.toNat ∧ c.toNat ≤ 0x7A := by
  have h : (c.isUpper || c.isLower || c.isDigit || c == '_') = true := h
  simp only [Bool.or_eq_true] at h
  rcases h with ((h | h) | h) | h
  · have hu : 0x41 ≤ c.toNat ∧ c.toNat ≤ 0x5A := of_decide_eq_true h
    omega
  · have hl := (Bool.and_eq_true _ _).mp h
    have hfirst : 0x61 ≤ c.toNat := of_decide_eq_true hl.1
    exact ⟨by omega, of_decide_eq_true hl.2⟩
  · have hd := (Bool.and_eq_true _ _).mp h
    have hlast : c.toNat ≤ 0x39 := of_decide_eq_true hd.2
    exact ⟨of_decide_eq_true hd.1, by omega⟩
  · obtain rfl := beq_iff_eq.mp h
    decide

theorem Text.isBlank_of_isWordChar {c : Char} (h : isWordChar c = true) : isBlank c = false := by
  have hrange := range_of_isWordChar h
  simp only [isBlank, Bool.or_eq_false_iff, Bool.and_eq_false_iff, decide_eq_false_iff_not,
    beq_eq_false_iff_ne]
  omega

namespace IsWord

theorem trim_eq (h : IsWord w) : trim w = w := by
  have hb : ∀ c ∈ w, ¬ isBlank c = true := fun c hc => by simp [isBlank_of_isWordChar (h.2 c hc)]
  rw [trim, trimRight_eq_rdropWhile,
    List.dropWhile_eq_self_iff.mpr fun hl => hb _ (List.getElem_mem hl)]
  exact List.rdropWhile_eq_self_iff.mpr fun hl => hb _ (List.getLast_mem hl)

theorem items_eq (h : IsWord w) : Quoting.items w = [w] := by
  rw [Quoting.items, splitEach_of_not_mem (h.not_mem rfl), List.map_singleton, h.trim_eq]

theorem wrapWords_eq (h : IsWord w) : wrapWords w = '"' :: w ++ ['"'] := by
  have hrun : wrapWords (w ++ []) = quoteRun w ++ wrapWords [] := wrapWords_run h.1 h.2 (by simp)
  have hempty : wrapWords [] = [] := rfl
  have hq : quoteRun w = '"' :: w ++ ['"'] := if_pos (List.all_eq_true.mpr h.2)
  rwa [List.append_nil, hempty, List.append_nil, hq] at hrun

theorem quoted_wrapWords (h : IsWord w) : Quoted w (wrapWords w) := h.wrapWords_eq ▸ .mk h

end IsWord

namespace Quoting

/-- The value is a word, or it has commas and its elements are words. -/
def Worded (value : String) : Prop :=
  IsWord value.toList ∨ ',' ∈ value.toList ∧ ∀ item ∈ elements value, IsWord item.toList

instance (value : String) : Decidable (Worded value) := inferInstanceAs (Decidable (_ ∨ _ ∧ _))

theorem map_toList_elements (value : String) :
    (elements value).map String.toList = items value.toList := by
  simp [elements_eq, Function.comp_def]

theorem two_le_length_items {cs : List Char} (h : ',' ∈ cs) : 2 ≤ (items cs).length := by
  obtain ⟨a, b, rfl, ha⟩ := List.eq_append_cons_of_mem h
  rw [items_append_cons a ha, List.length_cons]
  exact Nat.succ_le_succ (List.length_pos_iff.mpr (items_ne_nil b))

end Quoting

namespace Literal

def texts : Literal → List (List Char)
  | boolean b => [booleanText b]
  | word w => [w]
  | array ws => ws

def of (value : String) : Literal :=
  if ',' ∈ value.toList then array (Quoting.items value.toList)
  else if value.toList = booleanText true then boolean true
  else if value.toList = booleanText false then boolean false
  else word value.toList

theorem of_eq_boolean_iff {b : Bool} : of value = boolean b ↔ value.toList = booleanText b := by
  constructor
  · intro h
    unfold of at h
    split at h
    · cases h
    · split at h
      · next ht => cases h; exact ht
      · split at h
        · next hf => cases h; exact hf
        · cases h
  · intro h
    unfold of
    cases b <;> simp [h, booleanText]

theorem texts_of (h : Quoting.Worded value) :
    (of value).texts = (Quoting.elements value).map String.toList := by
  rw [Quoting.map_toList_elements]
  unfold of
  split
  · rfl
  · next hc =>
    have hw := (h.resolve_right fun hl => hc hl.1).items_eq
    split
    · next ht => rw [hw, ht]; rfl
    · split
      · next hf => rw [hw, hf]; rfl
      · exact hw.symm

end Literal

namespace Grammar

variable {α : Type} {W : α → List Char → Prop}

theorem listed_intercalate {as : List α} {ts : List (List Char)} (hne : as ≠ [])
    (h : List.Forall₂ W as ts) : Listed W as ([',', ' '].intercalate ts) := by
  induction h with
  | nil => exact absurd rfl hne
  | @cons a t as ts hat hr ih =>
    cases hr with
    | nil => simpa using Listed.one hat
    | cons _ _ =>
      have hmore := Listed.more hat (ih (by simp))
      rw [List.intercalate_cons_cons]
      simpa using hmore

theorem writtenLiteral_literalChars (h : Quoting.Worded value) :
    WrittenLiteral (.of value) (Quoting.literalChars value.toList) := by
  unfold Literal.of
  split
  · next hc =>
    have hw : ∀ w ∈ Quoting.items value.toList, IsWord w := by
      obtain ⟨-, hi⟩ := h.resolve_left fun hw => hw.not_mem rfl hc
      simpa [Quoting.elements_eq] using hi
    rw [Quoting.literalChars_of_mem hc, wrapWords_intercalate]
    refine .array (listed_intercalate (Quoting.items_ne_nil _) ?_)
      (Quoting.two_le_length_items hc)
    rw [List.forall₂_map_right_iff, List.forall₂_same]
    exact fun w hm => (hw w hm).quoted_wrapWords
  · next hc =>
    rw [Quoting.literalChars_of_not_mem hc, Quoting.quoteChars]
    split
    · next ht =>
      rw [ht]
      exact .boolean true
    · split
      · next hf =>
        rw [hf]
        exact .boolean false
      · next ht hf =>
        rw [if_neg fun hb => (Quoting.isBoolean_iff.mp hb).elim ht hf]
        exact .word (h.resolve_right fun hl => hc hl.1).quoted_wrapWords

end Grammar

namespace Setting

def Worded (y : Setting) : Prop := IsWord y.name.toList ∧ Quoting.Worded y.value

instance (y : Setting) : Decidable y.Worded := inferInstanceAs (Decidable (_ ∧ _))

def assignment (y : Setting) : Assignment := ⟨y.name.toList, .of y.value⟩

theorem Worded.written (h : y.Worded) : WrittenAssignment y.assignment y.fragment.toList := by
  rw [toList_fragment]
  exact .mk h.1 (writtenLiteral_literalChars h.2)

end Setting

/-- The assignment has the name of the setting and shows the elements of its value. It is a boolean
exactly when the value is one. -/
def Assignment.Shows (o : Assignment) (y : Setting) : Prop :=
  o.key = y.name.toList ∧ o.value.texts = (Quoting.elements y.value).map String.toList ∧
    ∀ b, o.value = .boolean b ↔ y.value.toList = booleanText b

theorem Setting.Worded.shows (h : y.Worded) : y.assignment.Shows y :=
  ⟨rfl, Literal.texts_of h.2, fun _ => Literal.of_eq_boolean_iff⟩

theorem written_render {f : Feature} {ys : List Setting} (hf : f ∈ Feature.catalog)
    (h : ∀ y ∈ ys, y.Worded) :
    Written ⟨f.name.toList, ys.map Setting.assignment⟩
      (SelectedFeature.render ⟨f, ys.map Setting.fragment⟩).toList := by
  have hn : IsName f.name.toList := ⟨f, hf, rfl⟩
  by_cases he : ys = []
  · simpa [SelectedFeature.toList_render, he] using Written.bare hn
  · have hl : Listed WrittenAssignment (ys.map Setting.assignment)
        ([',', ' '].intercalate ((ys.map Setting.fragment).map String.toList)) := by
      refine listed_intercalate (by simpa using he) ?_
      rw [List.map_map, List.forall₂_map_left_iff, List.forall₂_map_right_iff, List.forall₂_same]
      exact fun y hy => (h y hy).written
    simpa [SelectedFeature.toList_render, he] using Written.options hn hl

namespace Properties

variable {p : Properties}

/-- The settings of flags have words for names and values made of words. -/
def Worded (p : Properties) : Prop :=
  ∀ y ∈ p.settings, y.owner ∈ p.flags.map Flag.key → y.Worded

instance (p : Properties) : Decidable p.Worded :=
  inferInstanceAs (Decidable (∀ y ∈ p.settings, _))

/-- The settings that the flags of `f` collect. -/
def settingsOf (p : Properties) (f : Feature) : List Setting :=
  (p.flags.filter (·.feature = f)).flatMap fun x => p.settings.filter (·.owner = x.key)

theorem mem_settingsOf {f : Feature} :
    y ∈ p.settingsOf f ↔ y ∈ p.settings ∧ ⟨y.owner, f⟩ ∈ p.flags := by
  constructor
  · intro h
    obtain ⟨x, hcollects, hcollected⟩ := List.mem_flatMap.mp h
    obtain ⟨hx, hf⟩ := List.mem_filter.mp hcollects
    obtain ⟨hy, ho⟩ := List.mem_filter.mp hcollected
    rw [of_decide_eq_true ho, ← of_decide_eq_true hf]
    exact ⟨hy, hx⟩
  · rintro ⟨hy, hx⟩
    exact List.mem_flatMap.mpr ⟨_, List.mem_filter.mpr ⟨hx, decide_eq_true rfl⟩,
      List.mem_filter.mpr ⟨hy, decide_eq_true rfl⟩⟩

theorem Worded.of_mem_settingsOf (hp : p.Worded) {f : Feature} (hy : y ∈ p.settingsOf f) :
    y.Worded := by
  obtain ⟨hy, hx⟩ := mem_settingsOf.mp hy
  exact hp y hy (List.mem_map_of_mem hx)

theorem collected_eq_map_settingsOf (p : Properties) (f : Feature) :
    collected p.settings p.flags f = (p.settingsOf f).map Setting.fragment := by
  rw [collected, settingsOf, List.map_flatMap]

/-- When the options of flags are made of words, each annotation is written by the grammar in one
way only. What is read from it is the name of its feature and, in order, the settings that the
flags of the feature collect. -/
theorem annotations_written (hp : p.Worded) :
    List.Forall₂ (fun text g => ∃ a, annotation? text.toList = some a ∧
        (∀ b, Written b text.toList ↔ b = a) ∧ a.name = g.feature.name.toList ∧
        List.Forall₂ Assignment.Shows a.options (p.settingsOf g.feature))
      p.compile.annotations p.compile.features := by
  rw [Selection.annotations, List.forall₂_map_left_iff, List.forall₂_same]
  intro g hg
  obtain ⟨f, hf, rfl⟩ := mem_features_compile.mp hg
  have hf := namedFeatures_subset (fun x => feature_mem_catalog) hf
  have hy : ∀ y ∈ p.settingsOf f, y.Worded := fun y => hp.of_mem_settingsOf
  have hw := written_render hf hy
  rw [← collected_eq_map_settingsOf] at hw
  refine ⟨_, annotation?_eq_some_iff.mpr hw, fun b => ⟨fun hb => hb.unique hw, ?_⟩, rfl, ?_⟩
  · rintro rfl
    exact hw
  · rw [List.forall₂_map_left_iff, List.forall₂_same]
    exact fun y h => (hy y h).shows

theorem annotations_written_of_two_spellings :
    let p := Properties.ofList
      [("Accessors", "TRUE"), ("accessors", "true"), ("accessors.prefix", "f , m_,true"),
        ("toString.of", "a b"), ("Accessors.fluent", "true")]
    let text := "@Accessors(fluent=true, prefix=\x7b\"f\", \"m_\", \"true\"\x7d)"
    p.Worded ∧ p.compile.annotations = ["@Data", text] ∧
      ∃ a, Written a text.toList ∧ List.Forall₂ Assignment.Shows a.options
        [⟨"Accessors", "fluent", "true"⟩, ⟨"accessors", "prefix", "f , m_,true"⟩] := by
  intro p text
  let f : Feature := ⟨"accessors", "@Accessors", "lombok.experimental.Accessors", []⟩
  have hp : p.Worded := by decide
  have hg : p.compile.features = [⟨.default, []⟩, ⟨f, collected p.settings p.flags f⟩] := by
    rw [compile_eq_described]
    decide
  have ha : p.compile.annotations = ["@Data", text] := by
    rw [Selection.annotations, hg]
    decide
  have h := annotations_written hp
  rw [ha, hg, List.forall₂_cons, List.forall₂_cons] at h
  obtain ⟨-, ⟨a, -, hw, -, hs⟩, -⟩ := h
  have hy : p.settingsOf f =
      [⟨"Accessors", "fluent", "true"⟩, ⟨"accessors", "prefix", "f , m_,true"⟩] := by decide
  exact ⟨hp, ha, a, (hw a).mpr rfl, hy ▸ hs⟩

end Properties

end ClassAnnotator
