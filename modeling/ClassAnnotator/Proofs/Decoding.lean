import ClassAnnotator.Proofs.Described
import ClassAnnotator.Proofs.Wrapping
import Mathlib.Data.List.TakeWhile

/-! # Decoding annotations

An option fragment ends where its literal does: an array at its first closing brace, any other
literal before the first comma. So the fragments of an annotation can be read back from its text,
although options and elements of arrays are separated alike. The name of an option must not
contain an equals sign, and its value no brace.
-/

namespace ClassAnnotator

open Text

namespace Decoding

/-- A literal whose end can be told from what follows it. -/
inductive IsLiteral : List Char → Prop where
  | scalar {cs : List Char} : ',' ∉ cs → '{' ∉ cs → IsLiteral cs
  | array {inner : List Char} : '}' ∉ inner → IsLiteral ('{' :: inner ++ ['}'])

/-- A name and a literal around an equals sign, the first one. -/
inductive IsFragment : List Char → Prop where
  | mk {name literal : List Char} : '=' ∉ name → IsLiteral literal →
      IsFragment (name ++ '=' :: literal)

/-- The literal at the beginning of a text, and what follows it. -/
def literal? : List Char → Option (List Char × List Char)
  | '{' :: r => (splitFirst? '}' r).map fun (inner, rest) => ('{' :: inner ++ ['}'], rest)
  | cs => some (cs.takeWhile (· ≠ ','), cs.dropWhile (· ≠ ','))

def fragment? (cs : List Char) : Option (List Char × List Char) :=
  (splitFirst? '=' cs).bind fun (name, r) =>
    (literal? r).map fun (literal, rest) => (name ++ '=' :: literal, rest)

variable {cs l r literal f rest : List Char}

theorem eq_append_of_literal? (h : literal? cs = some (l, r)) : cs = l ++ r := by
  unfold literal? at h
  split at h
  · next s =>
    obtain ⟨⟨inner, rest⟩, hs, he⟩ := Option.map_eq_some_iff.mp h
    obtain ⟨rfl, rfl⟩ := Prod.mk.inj he
    simp [(splitFirst?_eq_some_iff.mp hs).1]
  · obtain ⟨rfl, rfl⟩ := Prod.mk.inj (Option.some.inj h)
    exact List.takeWhile_append_dropWhile.symm

theorem eq_append_of_fragment? (h : fragment? cs = some (f, r)) : cs = f ++ r ∧ f ≠ [] := by
  obtain ⟨⟨name, s⟩, hs, h⟩ := Option.bind_eq_some_iff.mp h
  obtain ⟨⟨literal, rest⟩, hl, he⟩ := Option.map_eq_some_iff.mp h
  obtain ⟨rfl, rfl⟩ := Prod.mk.inj he
  rw [(splitFirst?_eq_some_iff.mp hs).1, eq_append_of_literal? hl]
  simp

def fragments? (cs : List Char) : Option (List (List Char)) :=
  match _h : fragment? cs with
  | some (f, []) => some [f]
  | some (f, ',' :: ' ' :: r) => (fragments? r).map (f :: ·)
  | _ => none
termination_by cs.length
decreasing_by
  rw [(eq_append_of_fragment? _h).1]
  simp
  omega

def parts? (cs : List Char) : Option (List Char × List (List Char)) :=
  match cs.dropWhile (· ≠ '(') with
  | [] => some (cs, [])
  | _ :: body => (fragments? body.dropLast).map (cs.takeWhile (· ≠ '('), ·)

/-- The built-in feature and the fragments that an annotation shows. -/
def decode? (text : String) : Option SelectedFeature :=
  (parts? text.toList).bind fun (name, fragments) =>
    (Feature.catalog.find? (·.name.toList = name)).map fun f =>
      ⟨f, fragments.map String.ofList⟩

theorem literal?_append (h : IsLiteral literal) (hr : ∀ c ∈ rest.head?, c = ',') :
    literal? (literal ++ rest) = some (literal, rest) := by
  cases h with
  | scalar hc hb =>
    have hrest : rest.takeWhile (· ≠ ',') = [] ∧ rest.dropWhile (· ≠ ',') = rest := by
      cases rest with
      | nil => simp
      | cons c rest => simp [hr c rfl]
    have hl : ∀ c ∈ literal, decide (c ≠ ',') = true :=
      fun c hm => decide_eq_true fun e => hc (e ▸ hm)
    unfold literal?
    split
    · next s he =>
      have hm : '{' ∈ literal ++ rest.take 1 := by
        cases literal <;> cases rest <;> simp_all
      rcases List.mem_append.mp hm with hm | hm
      · exact absurd hm hb
      · cases rest <;> simp_all
    · rw [List.takeWhile_append_of_pos hl, List.dropWhile_append_of_pos hl, hrest.1, hrest.2,
        List.append_nil]
  | @array inner hi =>
    have hs : splitFirst? '}' (inner ++ '}' :: rest) = some (inner, rest) :=
      splitFirst?_eq_some_iff.mpr ⟨rfl, hi⟩
    simp [literal?, hs]

theorem fragment?_append (h : IsFragment f) (hr : ∀ c ∈ rest.head?, c = ',') :
    fragment? (f ++ rest) = some (f, rest) := by
  cases h with
  | @mk name literal hn hl =>
    have hs : splitFirst? '=' (name ++ '=' :: (literal ++ rest)) =
        some (name, literal ++ rest) := splitFirst?_eq_some_iff.mpr ⟨rfl, hn⟩
    simp [fragment?, hs, literal?_append hl hr]

theorem fragments?_intercalate {fs : List (List Char)} (hne : fs ≠ [])
    (h : ∀ f ∈ fs, IsFragment f) : fragments? ([',', ' '].intercalate fs) = some fs := by
  induction fs with
  | nil => exact absurd rfl hne
  | cons f fs ih =>
    have hf := h f (List.mem_cons_self ..)
    cases fs with
    | nil =>
      have hone : fragment? (f ++ []) = some (f, []) := fragment?_append hf (by simp)
      rw [List.append_nil] at hone
      rw [List.intercalate_singleton, fragments?, hone]
    | cons g fs =>
      have hmore := ih (by simp) fun g hg => h g (List.mem_cons_of_mem _ hg)
      have hone : fragment? (f ++ ',' :: ' ' :: [',', ' '].intercalate (g :: fs)) =
          some (f, ',' :: ' ' :: [',', ' '].intercalate (g :: fs)) :=
        fragment?_append hf (by simp)
      rw [List.intercalate_cons_cons, List.append_assoc, List.cons_append, List.cons_append,
        List.nil_append, fragments?, hone]
      change (fragments? ([',', ' '].intercalate (g :: fs))).map (f :: ·) = some (f :: g :: fs)
      rw [hmore]
      rfl

theorem parts?_of_name {name : List Char} (hn : '(' ∉ name) : parts? name = some (name, []) := by
  have hd : name.dropWhile (· ≠ '(') = [] :=
    List.dropWhile_eq_nil_iff.mpr fun c hc => decide_eq_true fun e => hn (e ▸ hc)
  rw [parts?, hd]

theorem parts?_of_body {name body : List Char} (hn : '(' ∉ name) :
    parts? (name ++ '(' :: (body ++ [')'])) = (fragments? body).map (name, ·) := by
  have hp : ∀ c ∈ name, decide (c ≠ '(') = true :=
    fun c hc => decide_eq_true fun e => hn (e ▸ hc)
  rw [parts?, List.dropWhile_append_of_pos hp, List.takeWhile_append_of_pos hp]
  simp

theorem isLiteral_literalChars (ho : '{' ∉ cs) (hc : '}' ∉ cs) :
    IsLiteral (Quoting.literalChars cs) := by
  by_cases h : ',' ∈ cs
  · rw [Quoting.literalChars_of_mem h]
    refine .array (mt (mem_wrapWords (by decide)).mp ?_)
    exact not_mem_intercalate (by decide) fun part hp hm => hc (Quoting.subset_of_mem_items hp hm)
  · rw [Quoting.literalChars_of_not_mem h, Quoting.quoteChars]
    split
    · exact .scalar h ho
    · exact .scalar (mt (mem_wrapWords (by decide)).mp h) (mt (mem_wrapWords (by decide)).mp ho)

theorem isFragment_fragment {y : Setting} (hn : '=' ∉ y.name.toList)
    (ho : '{' ∉ y.value.toList) (hc : '}' ∉ y.value.toList) : IsFragment y.fragment.toList := by
  rw [Setting.toList_fragment]
  exact .mk hn (isLiteral_literalChars ho hc)

theorem catalog_names : ∀ f ∈ Feature.catalog, '(' ∉ f.name.toList ∧
    Feature.catalog.find? (·.name.toList = f.name.toList) = some f := by
  decide

theorem decode?_render {g : SelectedFeature} (hg : g.feature ∈ Feature.catalog)
    (ho : ∀ o ∈ g.options, IsFragment o.toList) : decode? g.render = some g := by
  obtain ⟨feature, options⟩ := g
  obtain ⟨hn, hf⟩ := catalog_names feature hg
  by_cases he : options = []
  · simp [decode?, SelectedFeature.toList_render, he, parts?_of_name hn, hf]
  · have hfs : fragments? ([',', ' '].intercalate (options.map String.toList)) =
        some (options.map String.toList) :=
      fragments?_intercalate (by simpa using he) (by simpa using ho)
    simp [decode?, SelectedFeature.toList_render, he, parts?_of_body hn, hfs, hf]

end Decoding

namespace Properties

/-- Option names have no equals sign and option values no brace. -/
def Plain (p : Properties) : Prop :=
  ∀ y ∈ p.settings, '=' ∉ y.name.toList ∧ '{' ∉ y.value.toList ∧ '}' ∉ y.value.toList

instance (p : Properties) : Decidable p.Plain :=
  inferInstanceAs (Decidable (∀ y ∈ p.settings, _))

variable {p q : Properties} {g : SelectedFeature}

theorem Plain.decode?_render (hp : p.Plain) (hg : g ∈ p.compile.features) :
    Decoding.decode? g.render = some g := by
  refine Decoding.decode?_render (mem_catalog_of_mem_features hg) fun o ho => ?_
  obtain ⟨y, hy, rfl⟩ := exists_setting_of_mem_options hg ho
  obtain ⟨hn, hb, hc⟩ := hp y hy
  exact Decoding.isFragment_fragment hn hb hc

/-- Reading the annotations gives the selection back. -/
theorem Plain.decode?_annotations (hp : p.Plain) :
    p.compile.annotations.map Decoding.decode? = p.compile.features.map some := by
  rw [Selection.annotations, List.map_map]
  exact List.map_congr_left fun g hg => hp.decode?_render hg

/-- The annotations tell which features are selected, in which order and with which options. -/
theorem compile_eq_iff_annotations_eq (hp : p.Plain) (hq : q.Plain) :
    (p.compile = q.compile ↔ p.compile.annotations = q.compile.annotations) ∧
    ((p.compile == q.compile) = true ↔ p.compile.annotations = q.compile.annotations) := by
  have heq := p.keyed_compile.eq_iff_features_eq q.keyed_compile
  have hiff : p.compile = q.compile ↔ p.compile.annotations = q.compile.annotations := by
    constructor
    · exact congrArg Selection.annotations
    · intro h
      have hf : p.compile.features.map some = q.compile.features.map some := by
        rw [← hp.decode?_annotations, ← hq.decode?_annotations, h]
      exact heq.mpr (List.map_injective_iff.mpr (fun _ _ => Option.some.inj) hf)
  exact ⟨hiff, Selection.beq_iff_features_eq.trans (heq.symm.trans hiff)⟩

theorem annotations_ne_of_array_and_option :
    let p := Properties.ofList
      [("accessors", "true"), ("accessors.prefix", "f, (b"), ("accessors.a, \"b", "True")]
    let q := Properties.ofList
      [("accessors", "true"), ("accessors.prefix", "f"), ("accessors.(b", "x y")]
    p.Plain ∧ q.Plain ∧ p.compile.annotations ≠ q.compile.annotations := by
  intro p q
  have hp : p.Plain := by decide
  have hq : q.Plain := by decide
  refine ⟨hp, hq, mt (compile_eq_iff_annotations_eq hp hq).1.mpr ?_⟩
  rw [compile_eq_described, compile_eq_described]
  decide

end Properties

end ClassAnnotator
