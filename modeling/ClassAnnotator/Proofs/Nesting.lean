import ClassAnnotator.Proofs.Braces
import ClassAnnotator.Proofs.OptionNames
import Mathlib.Data.List.Infix

/-! # Nested braces

Braces nest when, read from the left, none is closed that is not open. The findings compare numbers
of braces alone, so a value without an error can close a brace before it opens one. An annotation
without errors nests exactly when the values of its options do, each inside of the braces that an
array literal adds.
-/

namespace ClassAnnotator

namespace Text

/-- When `d` braces are open before a text, none is closed in it that is not open. -/
def Nests (d : ℤ) (cs : List Char) : Prop := ∀ front, front <+: cs → 0 ≤ d + excess front

instance (d : ℤ) (cs : List Char) : Decidable (Nests d cs) :=
  decidable_of_iff (∀ front ∈ cs.inits, 0 ≤ d + excess front)
    (by simp only [List.mem_inits, Nests])

variable {d d' : ℤ} {c : Char} {cs : List Char}

theorem nests_nil : Nests d [] ↔ 0 ≤ d := by
  simp [Nests]

theorem Nests.nonneg (h : Nests d cs) : 0 ≤ d := by simpa using h [] List.nil_prefix

theorem Nests.mono (h : Nests d cs) (hd : d ≤ d') : Nests d' cs :=
  fun front hfront => Int.le_trans (h front hfront) (Int.add_le_add_right hd _)

theorem nests_cons : Nests d (c :: cs) ↔ 0 ≤ d ∧ Nests (d + excess [c]) cs := by
  constructor
  · intro h
    refine ⟨h.nonneg, fun front hfront => ?_⟩
    rw [Int.add_assoc, ← excess_cons]
    exact h (c :: front) (List.cons_prefix_cons.mpr ⟨rfl, hfront⟩)
  · rintro ⟨hd, h⟩ front hfront
    rcases List.prefix_cons_iff.mp hfront with rfl | ⟨rest, rfl, hrest⟩
    · simpa using hd
    · rw [excess_cons, ← Int.add_assoc]
      exact h rest hrest

theorem nests_append (as bs : List Char) :
    Nests d (as ++ bs) ↔ Nests d as ∧ Nests (d + excess as) bs := by
  induction as generalizing d with
  | nil => simpa [nests_nil] using Nests.nonneg
  | cons a as ih =>
    rw [List.cons_append, nests_cons, nests_cons, ih, and_assoc, excess_cons a as, Int.add_assoc]

theorem nests_braces : Nests d (braces cs) ↔ Nests d cs := by
  induction cs generalizing d with
  | nil => rfl
  | cons c cs ih =>
    rw [braces_cons, nests_append, excess_braces, ih, nests_cons]
    -- the rest nests on both sides, so the number of open braces after `c` is not negative
    refine and_congr_left fun hcs => ?_
    by_cases h : c = '{' ∨ c = '}'
    · have hc : braces [c] = [c] := by simp [braces, h]
      rw [hc, nests_cons, nests_nil]
      exact and_iff_left hcs.nonneg
    · have hc : braces [c] = [] := by simp [braces, h]
      rw [hc, nests_nil]

/-- Texts that are balanced nest one after the other when each of them does. -/
theorem nests_flatten_iff {parts : List (List Char)} (h : ∀ part ∈ parts, excess part = 0)
    (hd : 0 ≤ d) : Nests d parts.flatten ↔ ∀ part ∈ parts, Nests d part := by
  induction parts with
  | nil => simpa [nests_nil] using hd
  | cons part parts ih =>
    obtain ⟨hpart, hparts⟩ := List.forall_mem_cons.mp h
    rw [List.flatten_cons, nests_append, hpart, Int.add_zero, ih hparts, List.forall_mem_cons]

end Text

namespace Quoting

def depth (cs : List Char) : ℤ := if ',' ∈ cs then 1 else 0

/-- The literal of a balanced value nests when the value does at its depth. -/
theorem nests_literalChars {cs : List Char} (h : Text.excess cs = 0) :
    Text.Nests 0 (literalChars cs) ↔ Text.Nests (depth cs) cs := by
  rw [← Text.nests_braces, braces_literalChars, depth]
  split
  · have hopen : Text.excess ['{'] = 1 := rfl
    have hclose : Text.Nests 1 ['}'] :=
      Text.nests_cons.mpr ⟨by decide, Text.nests_nil.mpr (by decide)⟩
    rw [List.cons_append, Text.nests_cons, hopen, Int.zero_add, Text.nests_append,
      Text.excess_braces, h, Int.add_zero, Text.nests_braces]
    exact ⟨fun hn => hn.2.1, fun hn => ⟨Int.le_refl 0, hn, hclose⟩⟩
  · exact Text.nests_braces

end Quoting

/-- Read from the left, no brace is closed that is not open, and in the end none is open. -/
def Nested (text : String) : Prop :=
  (∀ front, front <+: text.toList → front.count '}' ≤ front.count '{') ∧ Balanced text

variable {p : Properties} {y : Setting} {g : SelectedFeature} {text : String}

theorem nested_iff : Nested text ↔ Text.Nests 0 text.toList ∧ Text.excess text.toList = 0 := by
  have hfront : ∀ front : List Char,
      front.count '}' ≤ front.count '{' ↔ 0 ≤ 0 + Text.excess front := by
    intro front
    rw [Text.excess]
    omega
  simp only [Nested, Text.Nests, balanced_iff_excess, hfront]

instance (text : String) : Decidable (Nested text) := decidable_of_iff _ nested_iff.symm

/-- The value of the setting nests where its literal puts it. -/
def Setting.NestsInside (y : Setting) : Prop :=
  Text.Nests (Quoting.depth y.value.toList) y.value.toList

instance (y : Setting) : Decidable y.NestsInside := inferInstanceAs (Decidable (Text.Nests _ _))

theorem Setting.nestsInside_of_nested (h : Nested y.value) : y.NestsInside := by
  refine (nested_iff.mp h).1.mono ?_
  rw [Quoting.depth]
  split <;> decide

theorem Setting.Unbraced.nests_fragment_iff (h : y.Unbraced) (hv : Balanced y.value) :
    Text.Nests 0 y.fragment.toList ↔ y.NestsInside := by
  rw [← Text.nests_braces, h.braces_fragment, Text.nests_braces,
    Quoting.nests_literalChars (balanced_iff_excess.mp hv)]
  rfl

theorem SelectedFeature.nested_render_iff (hg : g.feature ∈ Feature.catalog)
    (ho : ∀ o ∈ g.options, Balanced o) :
    Nested g.render ↔ ∀ o ∈ g.options, Text.Nests 0 o.toList := by
  have hparts : ∀ part ∈ g.options.map fun o => Text.braces o.toList, Text.excess part = 0 := by
    refine List.forall_mem_map.mpr fun o hm => ?_
    rw [Text.excess_braces]
    exact balanced_iff_excess.mp (ho o hm)
  rw [nested_iff, and_iff_left (balanced_iff_excess.mp (balanced_render hg ho)),
    ← Text.nests_braces, braces_render hg, Text.nests_flatten_iff hparts (Int.le_refl 0),
    List.forall_mem_map]
  simp only [Text.nests_braces]

namespace Properties

/-- Without errors the braces of every annotation nest. -/
def NestedWithoutErrors (p : Properties) : Prop :=
  (∀ y ∈ p.settings, '{' ∉ y.key.toList ∧ '}' ∉ y.key.toList) →
    Lint.hasErrors (Lint.issues p) = false → ∀ text ∈ p.compile.annotations, Nested text

theorem not_nestedWithoutErrors_of_closed_first :
    let p := Properties.ofList [("builder", "true"), ("builder.a", "\x7d\x7b")]
    Lint.issues p = [] ∧ p.compile.annotations = ["@Data", "@Builder(a=\x7d\x7b)"] ∧
      ¬ p.NestedWithoutErrors := by
  intro p
  have ha : p.compile.annotations = ["@Data", "@Builder(a=\x7d\x7b)"] := by
    rw [compile_eq_described]
    decide
  refine ⟨by decide, ha, fun h => ?_⟩
  have hn := h (by decide) (by decide) "@Builder(a=\x7d\x7b)" (by rw [ha]; decide)
  exact absurd hn (by decide)

/-- Without errors an annotation nests exactly when the value of each option nests, where one brace
is open before it if it is an array. So the values that nest on their own give annotations that
nest, and equal numbers of braces in a value are not enough. -/
theorem nested_annotations_iff (hp : ∀ y ∈ p.settings, y.Unbraced)
    (herrors : Lint.hasErrors (Lint.issues p) = false) :
    (∀ g ∈ p.compile.features, Nested g.render ↔ ∀ y ∈ p.settingsOf g.feature, y.NestsInside) ∧
    ((∀ y ∈ p.settings, Nested y.value) → ∀ text ∈ p.compile.annotations, Nested text) := by
  have hiff : ∀ g ∈ p.compile.features,
      (Nested g.render ↔ ∀ y ∈ p.settingsOf g.feature, y.NestsInside) := by
    intro g hg
    have hsettings : ∀ y ∈ p.settingsOf g.feature, y.Unbraced ∧ Balanced y.value := by
      intro y hy
      obtain ⟨hy, -⟩ := mem_settingsOf.mp hy
      exact ⟨hp y hy, Lint.balanced_of_not_hasErrors herrors hy⟩
    have hbalanced : ∀ o ∈ g.options, Balanced o := by
      rw [options_eq_map_settingsOf hg, List.forall_mem_map]
      exact fun y hy => (hsettings y hy).1.balanced_fragment_iff.mpr (hsettings y hy).2
    rw [SelectedFeature.nested_render_iff (mem_catalog_of_mem_features hg) hbalanced,
      options_eq_map_settingsOf hg, List.forall_mem_map]
    exact forall₂_congr fun y hy => (hsettings y hy).1.nests_fragment_iff (hsettings y hy).2
  refine ⟨hiff, fun hnested text htext => ?_⟩
  obtain ⟨g, hg, rfl⟩ := List.mem_map.mp htext
  refine (hiff g hg).mpr fun y hy => Setting.nestsInside_of_nested ?_
  exact hnested y (mem_settingsOf.mp hy).1

theorem nested_annotations_iff_of_array_and_scalar :
    let p := Properties.ofList
      [("toString", "true"), ("toString.of", "\x7d,\x7b"), ("builder", "TRUE"),
        ("builder.a", "\x7d \x7b"), ("builder.b", "\x7bx\x7d")]
    let f : Feature := ⟨"toString", "@ToString", "lombok.ToString", []⟩
    let g : Feature := ⟨"builder", "@Builder", "lombok.Builder", []⟩
    Lint.hasErrors (Lint.issues p) = false ∧
      Nested (SelectedFeature.render ⟨f, ["of=\x7b\x7d, \x7b\x7d"]⟩) ∧
      ¬ Nested (SelectedFeature.render ⟨g, ["a=\x7d \x7b", "b=\x7b\"x\"\x7d"]⟩) := by
  intro p f g
  have herrors : Lint.hasErrors (Lint.issues p) = false := by decide
  have hf : ⟨f, ["of=\x7b\x7d, \x7b\x7d"]⟩ ∈ p.compile.features :=
    mem_features_compile.mpr ⟨f, by decide, by decide⟩
  have hg : ⟨g, ["a=\x7d \x7b", "b=\x7b\"x\"\x7d"]⟩ ∈ p.compile.features :=
    mem_features_compile.mpr ⟨g, by decide, by decide⟩
  obtain ⟨hiff, -⟩ := nested_annotations_iff (p := p) (by decide) herrors
  exact ⟨herrors, (hiff _ hf).mpr (by decide), mt (hiff _ hg).mp (by decide)⟩

end Properties

end ClassAnnotator
