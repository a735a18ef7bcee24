import ClassAnnotator.Proofs.WordOptions

/-! # The words of a literal

Quoting neither splits nor joins words: the words of a quoted text are those of the value, and each
of them stands between two quotes. So the value is found again when the characters around the words
are dropped. An array is quoted element by element, and no word reaches across elements.
-/

namespace ClassAnnotator

namespace Text

def words (cs : List Char) : List (List Char) := (runs cs).filter (·.all isWordChar)

/-- A word that goes on neither in the text before it nor in the text behind it. -/
structure WordBetween (before word behind : List Char) : Prop where
  isWord : IsWord word
  before : ∀ c ∈ before.getLast?, isWordChar c = false
  behind : ∀ c ∈ behind.head?, isWordChar c = false

/-- If a word begins or ends between the two characters, one of them is a quote. -/
def QuotedEdge (a b : Char) : Prop := alike a b = true ∨ a = '"' ∨ b = '"'

variable {a b c : Char} {cs run rest gap before word behind : List Char} {kind : Bool}

@[simp] theorem words_nil : words [] = [] := rfl

theorem words_run (hne : run ≠ []) (hrun : ∀ c ∈ run, isWordChar c = kind)
    (hrest : ∀ c ∈ rest.head?, isWordChar c = !kind) :
    words (run ++ rest) = (if kind then [run] else []) ++ words rest := by
  have hall : run.all isWordChar = kind := by
    cases kind with
    | true => exact List.all_eq_true.mpr hrun
    | false =>
      obtain ⟨c, cs, rfl⟩ := List.exists_cons_of_ne_nil hne
      simp [hrun c]
  rw [words, runs_append hne hrun hrest, List.filter_cons, hall]
  cases kind <;> rfl

theorem words_of_isWord (h : IsWord word) : words word = [word] := by
  have hrun : words (word ++ []) = [word] ++ words [] := words_run h.1 h.2 (by simp)
  simpa using hrun

theorem words_gap_append (hgap : ∀ c ∈ gap, isWordChar c = false) (cs : List Char) :
    words (gap ++ cs) = words cs := by
  by_cases hne : gap = []
  · rw [hne, List.nil_append]
  · induction cs using runs_induction with
    | nil => exact words_run hne hgap (by simp)
    | step kind run rest hrne hrun hrest _ =>
      cases kind with
      | false =>
        -- The gap and the run are one gap.
        have hjoin : ∀ c ∈ gap ++ run, isWordChar c = false := by
          simpa [or_imp, forall_and] using ⟨hgap, hrun⟩
        rw [words_run hrne hrun hrest, ← List.append_assoc,
          words_run (List.append_ne_nil_of_left_ne_nil hne _) hjoin hrest]
        rfl
      | true =>
        obtain ⟨c, cs, rfl⟩ := List.exists_cons_of_ne_nil hrne
        exact words_run hne hgap (by simpa using hrun c)

/-- No word reaches across a character outside words. -/
theorem words_append_cons (hc : isWordChar c = false) (as bs : List Char) :
    words (as ++ c :: bs) = words as ++ words bs := by
  have hcons : words ([c] ++ bs) = words bs := words_gap_append (by simpa using hc) bs
  rw [List.singleton_append] at hcons
  induction as using runs_induction with
  | nil => exact hcons
  | step kind run rest hne hrun hrest ih =>
    cases rest with
    | cons d rest =>
      have hhead : ∀ e ∈ (d :: rest ++ c :: bs).head?, isWordChar e = !kind := hrest
      rw [List.append_assoc, words_run hne hrun hhead, words_run hne hrun hrest, ih,
        List.append_assoc]
    | nil =>
      rw [words_run hne hrun hrest, List.append_nil, words_nil, List.append_nil]
      cases kind with
      | true => rw [words_run hne hrun (by simpa using hc), hcons]
      | false => rw [words_gap_append hrun, hcons]; rfl

theorem words_cons (hc : isWordChar c = false) (cs : List Char) : words (c :: cs) = words cs :=
  words_append_cons hc [] cs

theorem words_intercalate (parts : List (List Char)) :
    words ([',', ' '].intercalate parts) = parts.flatMap words := by
  induction parts with
  | nil => rfl
  | cons part parts ih =>
    cases parts with
    | nil => simp
    | cons q qs =>
      rw [List.intercalate_cons_cons, List.append_assoc, List.cons_append,
        words_append_cons (by decide), List.singleton_append, words_cons (by decide), ih,
        List.flatMap_cons, List.flatMap_cons, List.flatMap_cons]

theorem length_splitEach (sep : Char) (cs : List Char) :
    (splitEach sep cs).length = cs.count sep + 1 := by
  induction cs with
  | nil => rfl
  | cons c cs ih =>
    rw [splitEach]
    split
    · next h => simp [h, ih]
    · next h =>
      obtain ⟨part, parts, hs⟩ := List.exists_cons_of_length_eq_add_one ih
      rw [hs] at ih
      simp [hs, h, ← ih]

theorem words_wrapWords (cs : List Char) : words (wrapWords cs) = words cs := by
  have hquote : isWordChar '"' = false := by decide
  induction cs using runs_induction with
  | nil => rfl
  | step kind run rest hne hrun hrest ih =>
    rw [wrapWords_run hne hrun hrest, words_run hne hrun hrest]
    cases kind with
    | true =>
      have hq : quoteRun run = '"' :: run ++ ['"'] := if_pos (List.all_eq_true.mpr hrun)
      rw [hq, List.append_assoc, List.cons_append, words_cons hquote, List.singleton_append,
        words_append_cons hquote, words_of_isWord ⟨hne, hrun⟩, ih]
      rfl
    | false =>
      have hq : quoteRun run = run := by
        obtain ⟨c, cs, rfl⟩ := List.exists_cons_of_ne_nil hne
        simp [quoteRun, hrun c]
      rw [hq, words_gap_append hrun, ih]
      rfl

/-- Wrapped words have quotes at their edges, also towards what stands around the text. -/
theorem isChain_wrapWordsFrom {q : Char} (hq : isWordChar q = false) (p : Char) (cs : List Char) :
    (p :: (wrapWordsFrom (isWordChar p) cs ++ [q])).IsChain QuotedEdge := by
  induction cs generalizing p with
  | nil =>
    cases hp : isWordChar p with
    | true => simp [wrapWordsFrom, QuotedEdge]
    | false => simp [wrapWordsFrom, QuotedEdge, alike, hp, hq]
  | cons c cs ih =>
    rw [wrapWordsFrom]
    split
    · next hc =>
      rw [← hc, List.cons_append]
      exact .cons_cons (.inl (by simp [alike, hc])) (ih c)
    · rw [List.cons_append, List.cons_append]
      exact .cons_cons (.inr (.inr rfl)) (.cons_cons (.inr (.inl rfl)) (ih c))

theorem QuotedEdge.eq_left (h : QuotedEdge a b) (ha : isWordChar a = false)
    (hb : isWordChar b = true) : a = '"' := by
  rcases h with h | h | h
  · simp [alike, ha, hb] at h
  · exact h
  · rw [h] at hb
    cases hb

theorem QuotedEdge.eq_right (h : QuotedEdge a b) (ha : isWordChar a = true)
    (hb : isWordChar b = false) : b = '"' := by
  rcases h with h | h | h
  · simp [alike, ha, hb] at h
  · rw [h] at ha
    cases ha
  · exact h

theorem WordBetween.quotes (h : WordBetween before word behind)
    (ht : wrapWords cs = before ++ word ++ behind) :
    before.getLast? = some '"' ∧ behind.head? = some '"' := by
  -- Blanks around the text are no quotes, so what stands next to the word belongs to the text.
  have hblank : isWordChar ' ' = false := by decide
  have hchain : ((' ' :: before) ++ (word ++ (behind ++ [' ']))).IsChain QuotedEdge := by
    have := isChain_wrapWordsFrom hblank ' ' cs
    rw [hblank, ← wrapWords, ht] at this
    simpa using this
  obtain ⟨-, hchain, hleft⟩ := List.isChain_append.mp hchain
  obtain ⟨-, -, hright⟩ := List.isChain_append.mp hchain
  obtain ⟨hne, hword⟩ := h.isWord
  constructor
  · obtain ⟨b, bs, rfl⟩ := List.exists_cons_of_ne_nil hne
    have hb : isWordChar b = true := hword b (List.mem_cons_self ..)
    rcases List.eq_nil_or_concat before with rfl | ⟨l, a, rfl⟩
    · cases (hleft ' ' (by simp) b (by simp)).eq_left hblank hb
    · have ha : isWordChar a = false := h.before a (by simp)
      simpa using (hleft a (by simp [List.getLast?_cons]) b (by simp)).eq_left ha hb
  · obtain ⟨l, a, rfl⟩ := (List.eq_nil_or_concat word).resolve_left hne
    have ha : isWordChar a = true := hword a (by simp)
    cases behind with
    | nil => cases (hright a (by simp) ' ' (by simp)).eq_right ha hblank
    | cons b bs =>
      have hb : isWordChar b = false := h.behind b rfl
      simpa using (hright a (by simp) b (by simp)).eq_right ha hb

end Text

namespace Quoting

open Text

variable {v w : String}

theorem quote_injective : Function.Injective quote := fun _ _ h =>
  String.toList_injective (quoteChars_injective (String.ofList_injective h))

theorem toList_quote (ht : v ≠ "true") (hf : v ≠ "false") :
    (quote v).toList = wrapWords v.toList := by
  have hb : ¬ isBoolean v.toList = true := by
    rw [isBoolean_iff, String.toList_inj, String.toList_inj]
    exact not_or.mpr ⟨ht, hf⟩
  rw [quote, String.toList_ofList, quoteChars, if_neg hb]

/-- Quoting a value that is no boolean literal keeps its words and puts quotes around them, and the
value is found again by dropping the characters around the words. So no two values are quoted
alike, and booleans alone are written like booleans. -/
theorem quote_frames_words :
    (∀ v, v ≠ "true" → v ≠ "false" →
      words (quote v).toList = words v.toList ∧
      (quote v).toList = (runs v.toList).flatMap quoteRun ∧
      (∀ before word behind, (quote v).toList = before ++ word ++ behind →
        WordBetween before word behind →
        before.getLast? = some '"' ∧ behind.head? = some '"') ∧
      unwrapWordsFrom false (quote v).toList = v.toList) ∧
    Function.Injective quote ∧
    ∀ v, (quote v = "true" ↔ v = "true") ∧ (quote v = "false" ↔ v = "false") := by
  refine ⟨fun v ht hf => ?_, quote_injective, fun v => ⟨?_, ?_⟩⟩
  · rw [toList_quote ht hf]
    refine ⟨words_wrapWords _, wrapWords_eq_flatMap_runs _, fun before word behind hq hw => ?_,
      unwrapWordsFrom_wrapWordsFrom false _⟩
    exact hw.quotes hq
  · exact quote_injective.eq_iff (b := "true")
  · exact quote_injective.eq_iff (b := "false")

theorem quote_frames_words_of_quotes_and_letters :
    let v := "\"a\"-b_1é\"true"
    words (quote v).toList = ["a".toList, "b_1".toList, "true".toList] ∧
      quote v = "\"\"a\"\"-\"b_1\"é\"\"true\"" ∧
      unwrapWordsFrom false (quote v).toList = v.toList := by
  intro v
  obtain ⟨hwords, hruns, -, hunwrap⟩ := quote_frames_words.1 v (by decide) (by decide)
  exact ⟨hwords.trans (by decide), String.toList_injective (hruns.trans (by decide)), hunwrap⟩

/-- The text with its words in quotes, `true` and `false` too. -/
def quoteWords (text : String) : String :=
  String.ofList ((runs text.toList).flatMap quoteRun)

theorem toList_quoteWords (text : String) : (quoteWords text).toList = wrapWords text.toList := by
  rw [quoteWords, String.toList_ofList, wrapWords_eq_flatMap_runs]

theorem quoteWords_of_isWord (h : IsWord v.toList) : quoteWords v = "\"" ++ v ++ "\"" := by
  apply String.toList_injective
  rw [toList_quoteWords, h.wrapWords_eq]
  simp

theorem length_elements (v : String) : (elements v).length = v.toList.count ',' + 1 := by
  rw [elements_eq, List.length_map, items, List.length_map, length_splitEach]

/-- The literal of an array has the elements of the value, each with its words in quotes. Its words
are those of the elements one after the other. -/
theorem literal_eq_array_of_elements (h : ',' ∈ v.toList) :
    literal v = "\x7b" ++ ", ".intercalate ((elements v).map quoteWords) ++ "\x7d" ∧
    (elements v).length = v.toList.count ',' + 1 ∧
    words (literal v).toList = (elements v).flatMap (words ·.toList) ∧
    (∀ element ∈ elements v, IsWord element.toList →
      quoteWords element = "\"" ++ element ++ "\"") ∧
    ∀ element ∈ elements v, element = "" → quoteWords element = "" := by
  have hopen : isWordChar '{' = false := by decide
  have hclose : isWordChar '}' = false := by decide
  refine ⟨?_, length_elements v, ?_, fun _ _ => quoteWords_of_isWord, ?_⟩
  · apply String.toList_injective
    rw [toList_literal_of_mem h]
    simp [String.toList_intercalate, toList_quoteWords, elements_eq, Function.comp_def]
  · rw [toList_literal_of_mem h, List.cons_append, words_cons hopen, words_append_cons hclose,
      words_intercalate, elements_eq, List.flatMap_map, List.flatMap_map]
    simp [words_wrapWords]
  · rintro element - rfl
    rfl

theorem literal_eq_array_of_elements_of_booleans :
    let v := " true,,a b-\"c\" ,true"
    literal v = "\x7b\"true\", , \"a\" \"b\"-\"\"c\"\", \"true\"\x7d" ∧
      words (literal v).toList = ["true", "a", "b", "c", "true"].map String.toList ∧
      quoteWords "true" = "\"true\"" := by
  intro v
  obtain ⟨hliteral, -, hwords, hword, -⟩ := literal_eq_array_of_elements (v := v) (by decide)
  exact ⟨hliteral.trans (by decide), hwords.trans (by decide),
    hword "true" (by decide) (by decide)⟩

end Quoting

end ClassAnnotator
