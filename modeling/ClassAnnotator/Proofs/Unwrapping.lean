import ClassAnnotator.Proofs.Wrapping
import Mathlib.Data.List.DropRight

/-! # Unwrapping words

What wrapping adds can be told from what it keeps: the character in front of a word and the one
behind it are quotes that were added, and no other character was. So a literal tells its value, and
an array tells its elements without the blanks around them.
-/

namespace ClassAnnotator

namespace Text

variable {sep : Char} {cs part glue : List Char} {parts parts' : List (List Char)}

/-- Undo `wrapWordsFrom`: drop the character behind each word and the one in front of it. -/
def unwrapWordsFrom : Bool → List Char → List Char
  | _, [] => []
  | true, c :: r =>
    if isWordChar c then c :: unwrapWordsFrom true r else unwrapWordsFrom false r
  | false, c :: r =>
    if r.head?.any isWordChar then unwrapWordsFrom true r else c :: unwrapWordsFrom false r

theorem any_head_wrapWords (cs : List Char) :
    (wrapWordsFrom false cs).head?.any isWordChar = false := by
  cases cs with
  | nil => rfl
  | cons c cs =>
    rw [wrapWordsFrom]
    split
    · next hc => exact hc
    · rfl

theorem unwrapWordsFrom_wrapWordsFrom (inside : Bool) (cs : List Char) :
    unwrapWordsFrom inside (wrapWordsFrom inside cs) = cs := by
  have hquote : isWordChar '"' = false := rfl
  induction cs generalizing inside with
  | nil => cases inside <;> rfl
  | cons c cs ih =>
    cases inside with
    | true =>
      cases hc : isWordChar c with
      | true => simp [wrapWordsFrom, unwrapWordsFrom, hc, ih]
      | false => simp [wrapWordsFrom, unwrapWordsFrom, hc, hquote, any_head_wrapWords, ih]
    | false =>
      cases hc : isWordChar c with
      | true => simp [wrapWordsFrom, unwrapWordsFrom, hc, ih]
      | false => simp [wrapWordsFrom, unwrapWordsFrom, hc, any_head_wrapWords, ih]

theorem wrapWords_injective : Function.Injective wrapWords :=
  Function.LeftInverse.injective (unwrapWordsFrom_wrapWordsFrom false)

theorem splitEach_eq_splitOn (sep : Char) (cs : List Char) : splitEach sep cs = cs.splitOn sep := by
  induction cs with
  | nil => rfl
  | cons c cs ih =>
    rw [splitEach, ih, List.splitOn, List.splitOn, List.splitOnP_cons_eq_if_modifyHead]
    by_cases h : c = sep
    · simp [h]
    · obtain ⟨part, parts, hs⟩ := List.exists_cons_of_ne_nil (List.splitOnP_ne_nil (· == sep) cs)
      rw [if_neg h, if_neg (by simpa using h), hs, List.modifyHead_cons]

theorem trimRight_eq_rdropWhile (cs : List Char) : trimRight cs = cs.rdropWhile isBlank := by
  induction cs with
  | nil => rfl
  | cons c cs ih =>
    rw [trimRight, ih, List.rdropWhile, List.rdropWhile, List.reverse_cons, List.dropWhile_append]
    by_cases hr : cs.reverse.dropWhile isBlank = []
    · cases hc : isBlank c <;> simp [hr, hc]
    · obtain ⟨d, ds, hd⟩ := List.exists_cons_of_ne_nil (mt List.reverse_eq_nil_iff.mp hr)
      simp [hr, hd]

theorem not_mem_of_mem_splitEach (h : part ∈ splitEach sep cs) : sep ∉ part := by
  induction cs generalizing part with
  | nil => simp_all [splitEach]
  | cons d cs ih =>
    rw [splitEach] at h
    split at h
    · rcases List.mem_cons.mp h with rfl | h
      · exact List.not_mem_nil
      · exact ih h
    · next hd =>
      split at h
      · simpa [List.mem_singleton.mp h] using Ne.symm hd
      · next p ps hs =>
        rcases List.mem_cons.mp h with rfl | h
        · exact List.not_mem_cons_of_ne_of_not_mem (Ne.symm hd) (ih (by simp [hs]))
        · exact ih (by simp [hs, h])

theorem intercalate_cons_glue (sep : Char) (glue part : List Char) (parts : List (List Char)) :
    (sep :: glue).intercalate (part :: parts) =
      [sep].intercalate (part :: parts.map (glue ++ ·)) := by
  induction parts generalizing part with
  | nil => rfl
  | cons next parts ih =>
    rw [List.intercalate_cons_cons, ih, List.map_cons, List.intercalate_cons_cons]
    cases parts <;> simp [List.intercalate_cons_cons]

/-- Parts can be found again behind their separators. -/
theorem eq_of_intercalate_eq (hglue : sep ∉ glue) (hne : parts ≠ []) (hne' : parts' ≠ [])
    (h : ∀ part ∈ parts, sep ∉ part) (h' : ∀ part ∈ parts', sep ∉ part)
    (he : (sep :: glue).intercalate parts = (sep :: glue).intercalate parts') : parts = parts' := by
  -- Cutting leaves `glue` at the front of every part but the first.
  have hsplit : ∀ part (rest : List (List Char)), (∀ p ∈ part :: rest, sep ∉ p) →
      splitEach sep ((sep :: glue).intercalate (part :: rest)) = part :: rest.map (glue ++ ·) := by
    intro part rest hr
    obtain ⟨hpart, hrest⟩ := List.forall_mem_cons.mp hr
    rw [intercalate_cons_glue]
    refine splitEach_intercalate (by simp) (List.forall_mem_cons.mpr ⟨hpart, ?_⟩)
    rintro _ hm
    obtain ⟨p, hp, rfl⟩ := List.mem_map.mp hm
    exact fun hs => (List.mem_append.mp hs).elim hglue (hrest p hp)
  obtain ⟨part, rest, rfl⟩ := List.exists_cons_of_ne_nil hne
  obtain ⟨part', rest', rfl⟩ := List.exists_cons_of_ne_nil hne'
  have hs := congrArg (splitEach sep) he
  rw [hsplit part rest h, hsplit part' rest' h'] at hs
  obtain ⟨hpart, hrest⟩ := List.cons.inj hs
  rw [hpart, List.map_injective_iff.mpr (List.append_right_injective glue) hrest]

end Text

namespace Quoting

open Text

variable {cs ds : List Char}

/-- The texts between the commas of a value, without the blanks at their ends. -/
def elements (value : String) : List String :=
  (value.toList.splitOn ',').map fun cs => String.ofList ((cs.dropWhile isBlank).rdropWhile isBlank)

theorem elements_eq (value : String) : elements value = (items value.toList).map String.ofList := by
  simp [elements, items, splitEach_eq_splitOn, trim, trimRight_eq_rdropWhile, Function.comp_def]

theorem items_append_cons (a : List Char) (ha : ',' ∉ a) (b : List Char) :
    items (a ++ ',' :: b) = trim a :: items b := by
  rw [items, splitEach_append_cons ha, List.map_cons, items]

theorem items_ne_nil (cs : List Char) : items cs ≠ [] := by
  simp [items, splitEach_eq_splitOn, List.splitOn, List.splitOnP_ne_nil]

theorem not_mem_of_mem_items {item : List Char} (h : item ∈ items cs) : ',' ∉ item := by
  obtain ⟨part, hp, rfl⟩ := List.mem_map.mp h
  exact fun hm => not_mem_of_mem_splitEach hp (trim_subset part hm)

theorem isBoolean_iff : isBoolean cs = true ↔ cs = "true".toList ∨ cs = "false".toList := by
  simp [isBoolean]

theorem isBoolean_wrapWords (cs : List Char) : isBoolean (wrapWords cs) = false := by
  refine Bool.eq_false_iff.mpr fun hb => ?_
  have hhead : (wrapWords cs).head?.any isWordChar = false := any_head_wrapWords cs
  rcases isBoolean_iff.mp hb with hb | hb
  · rw [hb] at hhead
    exact absurd hhead (by decide)
  · rw [hb] at hhead
    exact absurd hhead (by decide)

theorem quoteChars_injective : Function.Injective quoteChars := by
  intro cs ds h
  unfold quoteChars at h
  split at h
  · next hcs =>
    split at h
    · exact h
    · rw [h, isBoolean_wrapWords] at hcs
      cases hcs
  · split at h
    · next hds =>
      rw [← h, isBoolean_wrapWords] at hds
      cases hds
    · exact wrapWords_injective h

theorem mem_quoteChars : ',' ∈ quoteChars cs ↔ ',' ∈ cs := by
  unfold quoteChars
  split
  · rfl
  · exact mem_wrapWords (by decide)

/-- An array literal has commas, and no other literal has. -/
theorem mem_literalChars : ',' ∈ literalChars cs ↔ ',' ∈ cs := by
  by_cases h : ',' ∈ cs
  · refine iff_of_true ?_ h
    obtain ⟨a, b, rfl, ha⟩ := List.eq_append_cons_of_mem h
    obtain ⟨item, rest, hb⟩ := List.exists_cons_of_ne_nil (items_ne_nil b)
    rw [literalChars, if_pos h, mem_quoteChars, items_append_cons a ha, hb, arrayText,
      List.intercalate_cons_cons]
    simp
  · rw [literalChars_of_not_mem h, mem_quoteChars]

theorem items_eq_of_literalChars_eq (hcs : ',' ∈ cs) (hds : ',' ∈ ds)
    (h : literalChars cs = literalChars ds) : items cs = items ds := by
  rw [literalChars_of_mem hcs, literalChars_of_mem hds] at h
  have htext := wrapWords_injective (List.append_cancel_right (List.cons.inj h).2)
  exact eq_of_intercalate_eq (by decide) (items_ne_nil cs) (items_ne_nil ds)
    (fun _ => not_mem_of_mem_items) (fun _ => not_mem_of_mem_items) htext

/-- Two values have the same literal exactly when they are the same, or both have commas and they
have the same elements. -/
theorem literal_eq_literal_iff (v w : String) :
    literal v = literal w ↔
      v = w ∨ ',' ∈ v.toList ∧ ',' ∈ w.toList ∧ elements v = elements w := by
  have helements : elements v = elements w ↔ items v.toList = items w.toList := by
    rw [elements_eq, elements_eq]
    exact (List.map_injective_iff.mpr fun _ _ => String.ofList_injective).eq_iff
  rw [literal, literal, String.ofList_inj, helements]
  constructor
  · intro h
    have hcomma : ',' ∈ v.toList ↔ ',' ∈ w.toList := by
      rw [← mem_literalChars, h, mem_literalChars]
    by_cases hv : ',' ∈ v.toList
    · exact .inr ⟨hv, hcomma.mp hv, items_eq_of_literalChars_eq hv (hcomma.mp hv) h⟩
    · rw [literalChars_of_not_mem hv, literalChars_of_not_mem (mt hcomma.mpr hv)] at h
      exact .inl (String.toList_injective (quoteChars_injective h))
  · rintro (rfl | ⟨hv, hw, h⟩)
    · rfl
    · rw [literalChars_of_mem hv, literalChars_of_mem hw, h]

example : literal " a,b" = literal "a , b " ∧ literal "a" ≠ literal "\"a\"" := by decide

end Quoting

end ClassAnnotator
