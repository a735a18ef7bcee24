import ClassAnnotator.Quoting
import Mathlib.Data.List.Basic
import Mathlib.Data.List.SplitBy

/-! # Wrapped words

Wrapping quotes the maximal runs of word characters and keeps all else, so it works on the parts of
a text between characters outside words on their own. Cutting and trimming a text only drop
characters, and cutting takes apart what separators were put between.
-/

namespace ClassAnnotator.Text

/-- Both characters belong to words, or neither does. -/
def alike (a b : Char) : Bool := isWordChar a == isWordChar b

/-- The maximal runs of word characters and of other characters that a text consists of. -/
def runs (cs : List Char) : List (List Char) := cs.splitBy alike

def quoteRun (run : List Char) : List Char :=
  if run.all isWordChar then '"' :: run ++ ['"'] else run

variable {a b c sep : Char} {cs part : List Char}

theorem wrapWordsFrom_append_cons (hc : isWordChar c = false) (inside : Bool)
    (as bs : List Char) :
    wrapWordsFrom inside (as ++ c :: bs) =
      wrapWordsFrom inside as ++ c :: wrapWordsFrom false bs := by
  induction as generalizing inside with
  | nil => cases inside <;> simp [wrapWordsFrom, hc]
  | cons a as ih =>
    by_cases h : isWordChar a = inside
    · simp [wrapWordsFrom, h, ih]
    · simp [wrapWordsFrom, h, ih]

theorem wrapWords_append_cons (hc : isWordChar c = false) (as bs : List Char) :
    wrapWords (as ++ c :: bs) = wrapWords as ++ c :: wrapWords bs :=
  wrapWordsFrom_append_cons hc false as bs

theorem wrapWords_cons (hc : isWordChar c = false) (bs : List Char) :
    wrapWords (c :: bs) = c :: wrapWords bs :=
  wrapWords_append_cons hc [] bs

theorem filter_wrapWordsFrom (inside : Bool) (cs : List Char) :
    (wrapWordsFrom inside cs).filter (· ≠ '"') = cs.filter (· ≠ '"') := by
  induction cs generalizing inside with
  | nil => cases inside <;> simp [wrapWordsFrom]
  | cons c cs ih =>
    by_cases h : isWordChar c = inside
    · simp only [wrapWordsFrom, h, if_true, List.filter_cons, ih]
    · simp only [wrapWordsFrom, h, if_false, List.filter_cons, ih]
      simp

theorem mem_wrapWords (hc : c ≠ '"') : c ∈ wrapWords cs ↔ c ∈ cs := by
  have h := congrArg (c ∈ ·) (filter_wrapWordsFrom false cs)
  simpa [wrapWords, hc] using h

theorem wrapWords_intercalate (parts : List (List Char)) :
    wrapWords ([',', ' '].intercalate parts) =
      [',', ' '].intercalate (parts.map wrapWords) := by
  have hcomma : isWordChar ',' = false := by decide
  have hblank : isWordChar ' ' = false := by decide
  induction parts with
  | nil => rfl
  | cons part parts ih =>
    cases parts with
    | nil => simp only [List.map_cons, List.map_nil, List.intercalate_singleton]
    | cons q qs =>
      rw [List.map_cons] at ih
      rw [List.intercalate_cons_cons, List.append_assoc, List.cons_append,
        wrapWords_append_cons hcomma, List.cons_append, wrapWords_cons hblank, List.nil_append, ih,
        List.map_cons, List.map_cons, List.intercalate_cons_cons]
      simp

theorem wrapWordsFrom_run {inside : Bool} {run : List Char} (h : ∀ c ∈ run, isWordChar c = inside)
    (rest : List Char) : wrapWordsFrom inside (run ++ rest) = run ++ wrapWordsFrom inside rest := by
  induction run with
  | nil => rfl
  | cons c run ih =>
    obtain ⟨hc, hrun⟩ := List.forall_mem_cons.mp h
    rw [List.cons_append, wrapWordsFrom, if_pos hc, ih hrun, List.cons_append]

theorem wrapWordsFrom_true {rest : List Char} (h : ∀ c ∈ rest.head?, isWordChar c = false) :
    wrapWordsFrom true rest = '"' :: wrapWords rest := by
  cases rest with
  | nil => rfl
  | cons c rest => simp [wrapWordsFrom, wrapWords, h c rfl]

theorem wrapWords_run {run rest : List Char} (hne : run ≠ []) {word : Bool}
    (hrun : ∀ c ∈ run, isWordChar c = word) (hrest : ∀ c ∈ rest.head?, isWordChar c = !word) :
    wrapWords (run ++ rest) = quoteRun run ++ wrapWords rest := by
  obtain ⟨c, cs, rfl⟩ := List.exists_cons_of_ne_nil hne
  cases word with
  | false =>
    have hq : quoteRun (c :: cs) = c :: cs := by simp [quoteRun, hrun c]
    rw [hq, wrapWords, wrapWordsFrom_run hrun]
    rfl
  | true =>
    have hq : quoteRun (c :: cs) = '"' :: (c :: cs) ++ ['"'] :=
      if_pos (List.all_eq_true.mpr hrun)
    have hopen : wrapWords ((c :: cs) ++ rest) = '"' :: wrapWordsFrom true ((c :: cs) ++ rest) := by
      simp [wrapWords, wrapWordsFrom, hrun c]
    rw [hopen, wrapWordsFrom_run hrun, wrapWordsFrom_true hrest, hq]
    simp

theorem alike_eq_false_iff : alike a b = false ↔ isWordChar b = !isWordChar a := by
  unfold alike
  cases isWordChar a <;> cases isWordChar b <;> decide

theorem runs_append {run rest : List Char} (hne : run ≠ []) {word : Bool}
    (hrun : ∀ c ∈ run, isWordChar c = word) (hrest : ∀ c ∈ rest.head?, isWordChar c = !word) :
    runs (run ++ rest) = run :: runs rest := by
  have hchain : run.IsChain (alike · ·) := by
    refine List.Pairwise.isChain (List.pairwise_iff_forall_sublist.mpr fun {a b} h => ?_)
    simp [alike, hrun a (h.subset (by simp)), hrun b (h.subset (by simp))]
  have hedge : ∀ a ∈ run.getLast?, ∀ b ∈ rest.head?, alike a b = false := by
    intro a ha b hb
    rw [alike_eq_false_iff, hrun a (List.mem_of_getLast? ha), hrest b hb]
  rw [runs, List.splitBy_append hedge, List.splitBy_of_isChain hne hchain]
  rfl

/-- Induction along the runs of a text: words and gaps take turns. -/
theorem runs_induction {P : List Char → Prop} (nil : P [])
    (step : ∀ (word : Bool) (run rest : List Char), run ≠ [] → (∀ c ∈ run, isWordChar c = word) →
      (∀ c ∈ rest.head?, isWordChar c = !word) → P rest → P (run ++ rest))
    (cs : List Char) : P cs := by
  induction hn : cs.length using Nat.strongRecOn generalizing cs with
  | _ n ih =>
    cases cs with
    | nil => exact nil
    | cons c cs =>
      have hcut : (c :: cs.takeWhile (alike c)) ++ cs.dropWhile (alike c) = c :: cs := by simp
      rw [← hcut]
      refine step (isWordChar c) _ _ (List.cons_ne_nil _ _) ?_ ?_ (ih _ ?_ _ rfl)
      · refine List.forall_mem_cons.mpr ⟨rfl, fun d hd => ?_⟩
        have halike : alike c d = true := List.all_eq_true.mp List.all_takeWhile d hd
        exact (beq_iff_eq.mp halike).symm
      · intro d hd
        have hd : alike c d = false := by
          have := List.head?_dropWhile_not (alike c) cs
          simpa [Option.mem_def.mp hd] using this
        exact alike_eq_false_iff.mp hd
      · have := (List.dropWhile_sublist (alike c) (l := cs)).length_le
        rw [← hn, List.length_cons]
        omega

/-- Wrapping quotes every maximal run of word characters. -/
theorem wrapWords_eq_flatMap_runs (cs : List Char) :
    wrapWords cs = (runs cs).flatMap quoteRun := by
  induction cs using runs_induction with
  | nil => rfl
  | step word run rest hne hrun hrest ih =>
    rw [wrapWords_run hne hrun hrest, ih, runs_append hne hrun hrest, List.flatMap_cons]

theorem subset_of_mem_splitEach (h : part ∈ splitEach sep cs) : part ⊆ cs := by
  induction cs generalizing part with
  | nil => simp_all [splitEach]
  | cons d cs ih =>
    rw [splitEach] at h
    split at h
    · rcases List.mem_cons.mp h with rfl | h
      · exact List.nil_subset _
      · exact List.subset_cons_of_subset _ (ih h)
    · split at h
      · simp_all
      · next p ps hs =>
        rcases List.mem_cons.mp h with rfl | h
        · exact List.cons_subset_cons _ (ih (by simp [hs]))
        · exact List.subset_cons_of_subset _ (ih (by simp [hs, h]))

theorem splitEach_of_not_mem (h : sep ∉ cs) : splitEach sep cs = [cs] := by
  induction cs with
  | nil => rfl
  | cons c cs ih =>
    obtain ⟨hc, hcs⟩ := not_or.mp (List.mem_cons.not.mp h)
    rw [splitEach, if_neg (Ne.symm hc), ih hcs]

theorem splitEach_append_cons (h : sep ∉ part) :
    splitEach sep (part ++ sep :: cs) = part :: splitEach sep cs := by
  induction part with
  | nil => rw [List.nil_append, splitEach, if_pos rfl]
  | cons c part ih =>
    obtain ⟨hc, hpart⟩ := not_or.mp (List.mem_cons.not.mp h)
    rw [List.cons_append, splitEach, if_neg (Ne.symm hc), ih hpart]

theorem splitEach_intercalate {parts : List (List Char)} (hne : parts ≠ [])
    (h : ∀ part ∈ parts, sep ∉ part) : splitEach sep ([sep].intercalate parts) = parts := by
  induction parts with
  | nil => exact absurd rfl hne
  | cons part parts ih =>
    obtain ⟨hpart, hparts⟩ := List.forall_mem_cons.mp h
    cases parts with
    | nil => rw [List.intercalate_singleton, splitEach_of_not_mem hpart]
    | cons q qs =>
      rw [List.intercalate_cons_cons, List.append_assoc, List.cons_append, List.nil_append,
        splitEach_append_cons hpart, ih (by simp) hparts]

theorem not_mem_intercalate {glue : List Char} {parts : List (List Char)} (hg : c ∉ glue)
    (h : ∀ part ∈ parts, c ∉ part) : c ∉ glue.intercalate parts := by
  induction parts with
  | nil => simp
  | cons part parts ih =>
    obtain ⟨hp, hr⟩ := List.forall_mem_cons.mp h
    cases parts with
    | nil => rwa [List.intercalate_singleton]
    | cons q qs =>
      rw [List.intercalate_cons_cons, List.mem_append, List.mem_append]
      exact not_or.mpr ⟨not_or.mpr ⟨hp, hg⟩, ih hr⟩

theorem trimRight_subset (cs : List Char) : trimRight cs ⊆ cs := by
  induction cs with
  | nil => simp [trimRight]
  | cons c cs ih =>
    rw [trimRight]
    split
    · split <;> simp
    · next d s h => exact List.cons_subset_cons _ (h ▸ ih)

theorem trim_subset (cs : List Char) : trim cs ⊆ cs :=
  List.Subset.trans (trimRight_subset _) (List.dropWhile_suffix _).subset

end ClassAnnotator.Text

namespace ClassAnnotator.Quoting

open Text

variable {cs part : List Char}

theorem subset_of_mem_items (h : part ∈ items cs) : part ⊆ cs := by
  obtain ⟨raw, hr, rfl⟩ := List.mem_map.mp h
  exact List.Subset.trans (trim_subset raw) (subset_of_mem_splitEach hr)

theorem literalChars_of_not_mem (h : ',' ∉ cs) : literalChars cs = quoteChars cs := if_neg h

theorem literalChars_of_mem (h : ',' ∈ cs) :
    literalChars cs = '{' :: wrapWords ([',', ' '].intercalate (items cs)) ++ ['}'] := by
  have hb : isBoolean (arrayText (items cs)) = false := by simp [isBoolean, arrayText]
  have ho : isWordChar '{' = false := by decide
  have hc : isWordChar '}' = false := by decide
  rw [literalChars, if_pos h, quoteChars, hb, if_neg Bool.false_ne_true, arrayText,
    List.cons_append, wrapWords_cons ho, wrapWords_append_cons hc]
  rfl

theorem toList_literal_of_mem {value : String} (h : ',' ∈ value.toList) :
    (literal value).toList =
      '{' :: [',', ' '].intercalate ((items value.toList).map wrapWords) ++ ['}'] := by
  rw [literal, String.toList_ofList, literalChars_of_mem h, wrapWords_intercalate]

end ClassAnnotator.Quoting
