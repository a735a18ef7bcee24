import ClassAnnotator.Lint.Report
import ClassAnnotator.Proofs.FirstOccurrence

/-! # What a printed report shows

A report is printed in pieces, each with the end of a line behind it. The texts of an issue can have
line breaks of their own, which stay inside of a piece, so it is pieces that are told apart here. A
block begins with a piece that has three blanks and a bracket in front, and its other pieces have
six blanks in front. What stands below a heading ends at the next heading. Read like this, a report
shows each issue once, the gravest first and otherwise in the order of the list, below the heading
of its severity.
-/

namespace ClassAnnotator.Lint

namespace Severity

/-- The severities, the gravest first. -/
def all : List Severity := [error, warning, info]

def rank : Severity → ℕ
  | error => 0
  | warning => 1
  | info => 2

theorem mem_all (s : Severity) : s ∈ all := by cases s <;> decide

theorem nodup_all : all.Nodup := by decide

theorem heading_injective : Function.Injective heading := by
  intro s t h
  cases s <;> cases t <;> first | rfl | exact absurd h (by decide)

end Severity

namespace Report

def opens (line : String) : Bool := (Text.after? "   [" line).isSome

def continues (line : String) : Bool := (Text.after? "      " line).isSome

def isHeading (line : String) : Bool := line ∈ Severity.all.map Severity.heading

/-- The blocks that lines show. -/
def blocks : List String → List (List String)
  | [] => []
  | line :: rest =>
    if opens line then (line :: rest.takeWhile continues) :: blocks rest else blocks rest

/-- The lines below the heading of a severity, up to the next heading. -/
def below (s : Severity) (lines : List String) : List String :=
  ((lines.dropWhile (· ≠ s.heading)).drop 1).takeWhile (!isHeading ·)

variable {issues issues' : List Issue} {s t : Severity} {line : String}
  {front body rest : List String}
  {severities : List Severity}

section lines

theorem head?_of_opens (h : opens line = true) : line.toList.head? = some ' ' := by
  obtain ⟨r, hr⟩ := Option.isSome_iff_exists.mp h
  rw [Text.after?_eq_some_iff.mp hr]
  simp

theorem head?_of_continues (h : continues line = true) : line.toList.head? = some ' ' := by
  obtain ⟨r, hr⟩ := Option.isSome_iff_exists.mp h
  rw [Text.after?_eq_some_iff.mp hr]
  simp

theorem not_opens_of_continues (h : continues line = true) : opens line = false := by
  refine Bool.eq_false_iff.mpr fun ho => ?_
  obtain ⟨r, hr⟩ := Option.isSome_iff_exists.mp h
  obtain ⟨r', hr'⟩ := Option.isSome_iff_exists.mp ho
  have he := (Text.after?_eq_some_iff.mp hr).symm.trans (Text.after?_eq_some_iff.mp hr')
  simpa using congrArg String.toList he

theorem isHeading_iff : isHeading line = true ↔ ∃ s : Severity, s.heading = line := by
  simp [isHeading, Severity.mem_all]

theorem head?_heading (s : Severity) : s.heading.toList.head? ≠ some ' ' := by
  cases s <;> decide

theorem not_isHeading (h : line.toList.head? = some ' ') : isHeading line = false := by
  refine Bool.eq_false_iff.mpr fun hh => ?_
  obtain ⟨s, rfl⟩ := isHeading_iff.mp hh
  exact head?_heading s h

theorem not_opens_heading (s : Severity) : opens s.heading = false :=
  Bool.eq_false_iff.mpr fun h => head?_heading s (head?_of_opens h)

theorem opens_append (r : String) : opens ("   [" ++ r) = true :=
  Option.isSome_iff_exists.mpr ⟨r, Text.after?_eq_some_iff.mpr rfl⟩

theorem continues_append (r : String) : continues ("      " ++ r) = true :=
  Option.isSome_iff_exists.mpr ⟨r, Text.after?_eq_some_iff.mpr rfl⟩

theorem exists_block_eq (i : Issue) : ∃ first more, block i = first :: more ∧
    opens first = true ∧ ∀ line ∈ more, continues line = true := by
  refine ⟨_, _, rfl, ?_, fun line hl => ?_⟩
  · rw [String.append_assoc, String.append_assoc]
    exact opens_append _
  · rcases List.mem_cons.mp hl with rfl | hl
    · exact continues_append _
    · obtain ⟨text, -, rfl⟩ := Option.map_eq_some_iff.mp (Option.mem_toList.mp hl)
      have he : "      💡 Suggestion: " ++ text = "      " ++ ("💡 Suggestion: " ++ text) :=
        String.toList_injective (by simp)
      rw [he]
      exact continues_append _

theorem not_isHeading_of_mem_block {i : Issue} (h : line ∈ block i) : isHeading line = false := by
  obtain ⟨first, more, he, hf, hm⟩ := exists_block_eq i
  rw [he] at h
  rcases List.mem_cons.mp h with rfl | h
  · exact not_isHeading (head?_of_opens hf)
  · exact not_isHeading (head?_of_continues (hm line h))

end lines

section blocks

theorem blocks_append_of_not_opens (h : ∀ line ∈ front, opens line = false) :
    blocks (front ++ rest) = blocks rest := by
  induction front with
  | nil => rfl
  | cons line front ih =>
    rw [List.cons_append, blocks, h line (List.mem_cons_self ..)]
    exact ih fun line hl => h line (List.mem_cons_of_mem _ hl)

/-- The block of an issue is read back where no further line continues it. -/
theorem blocks_block_append (i : Issue) (h : ∀ line ∈ rest.head?, continues line = false) :
    blocks (block i ++ rest) = block i :: blocks rest := by
  obtain ⟨first, more, he, hf, hm⟩ := exists_block_eq i
  have hrest : rest.takeWhile continues = [] := by
    cases rest with
    | nil => rfl
    | cons line rest => rw [List.takeWhile_cons_of_neg (by simp [h line rfl])]
  rw [he, List.cons_append, blocks, if_pos hf, List.takeWhile_append_of_pos hm, hrest,
    List.append_nil, blocks_append_of_not_opens fun line hl => not_opens_of_continues (hm line hl)]

theorem blocks_flatMap_block (h : ∀ line ∈ rest.head?, continues line = false) :
    blocks (issues.flatMap block ++ rest) = issues.map block ++ blocks rest := by
  induction issues with
  | nil => rfl
  | cons i issues ih =>
    have hnext : ∀ line ∈ (issues.flatMap block ++ rest).head?, continues line = false := by
      cases issues with
      | nil => exact h
      | cons j issues =>
        obtain ⟨first, more, he, hf, -⟩ := exists_block_eq j
        simp only [List.flatMap_cons, he, List.cons_append, List.head?_cons, Option.mem_def,
          Option.some.injEq, forall_eq']
        exact Bool.eq_false_iff.mpr fun hc => by simp [not_opens_of_continues hc] at hf
    rw [List.flatMap_cons, List.append_assoc, blocks_block_append i hnext, ih, List.map_cons,
      List.cons_append]

theorem sectionLines_of_eq_nil (h : ofSeverity s issues = []) : sectionLines issues s = [] := by
  rw [sectionLines, h]

theorem sectionLines_of_ne_nil (h : ofSeverity s issues ≠ []) :
    sectionLines issues s = s.heading :: ((ofSeverity s issues).flatMap block ++ [""]) := by
  unfold sectionLines
  split
  · next he => exact absurd he h
  · rfl

theorem blocks_sectionLines_append (issues : List Issue) (s : Severity) (rest : List String) :
    blocks (sectionLines issues s ++ rest) = (ofSeverity s issues).map block ++ blocks rest := by
  by_cases h : ofSeverity s issues = []
  · simp [sectionLines_of_eq_nil h, h]
  · have hblank : ∀ line ∈ ("" :: rest).head?, continues line = false := by
      intro line hl
      rw [← Option.some.inj hl]
      decide
    rw [sectionLines_of_ne_nil h, List.cons_append, List.append_assoc, blocks,
      if_neg (by simp [not_opens_heading]), List.singleton_append, blocks_flatMap_block hblank]
    rfl

theorem blocks_flatMap_sectionLines (issues : List Issue) (severities : List Severity) :
    blocks (severities.flatMap (sectionLines issues)) =
      (severities.flatMap fun s => ofSeverity s issues).map block := by
  induction severities with
  | nil => rfl
  | cons s severities ih =>
    rw [List.flatMap_cons, blocks_sectionLines_append, ih, List.flatMap_cons, List.map_append]

end blocks

section headings

theorem not_isHeading_of_mem_body (h : line ∈ (ofSeverity s issues).flatMap block ++ [""]) :
    isHeading line = false := by
  rcases List.mem_append.mp h with hl | hl
  · obtain ⟨i, -, hl⟩ := List.mem_flatMap.mp hl
    exact not_isHeading_of_mem_block hl
  · rw [List.mem_singleton.mp hl]
    decide

theorem filter_sectionLines (issues : List Issue) (s : Severity) :
    (sectionLines issues s).filter isHeading =
      if ofSeverity s issues = [] then [] else [s.heading] := by
  split
  · next h => rw [sectionLines_of_eq_nil h, List.filter_nil]
  · next h =>
    have hbody : ((ofSeverity s issues).flatMap block ++ [""]).filter isHeading = [] :=
      List.filter_eq_nil_iff.mpr fun line hl =>
        Bool.eq_false_iff.mp (not_isHeading_of_mem_body hl)
    rw [sectionLines_of_ne_nil h, List.filter_cons_of_pos (isHeading_iff.mpr ⟨s, rfl⟩), hbody]

theorem filter_flatMap_sectionLines (issues : List Issue) (severities : List Severity) :
    (severities.flatMap (sectionLines issues)).filter isHeading =
      (severities.filter (ofSeverity · issues ≠ [])).map Severity.heading := by
  induction severities with
  | nil => rfl
  | cons s severities ih =>
    rw [List.flatMap_cons, List.filter_append, filter_sectionLines, ih]
    by_cases h : ofSeverity s issues = [] <;> simp [h]

theorem below_append (h : s.heading ∉ front) : below s (front ++ rest) = below s rest := by
  have hf : ∀ line ∈ front, decide (line ≠ s.heading) = true :=
    fun line hl => decide_eq_true fun he => h (he ▸ hl)
  rw [below, List.dropWhile_append_of_pos hf, below]

theorem below_eq_nil (h : s.heading ∉ front) : below s front = [] := by
  have hb : below s (front ++ []) = below s [] := below_append h
  rwa [List.append_nil] at hb

theorem below_heading (hb : ∀ line ∈ body, isHeading line = false)
    (hr : ∀ line ∈ rest.head?, isHeading line = true) :
    below s (s.heading :: (body ++ rest)) = body := by
  have hb' : ∀ line ∈ body, (!isHeading line) = true := fun line hl => by simp [hb line hl]
  have hrest : rest.takeWhile (!isHeading ·) = [] := by
    cases rest with
    | nil => rfl
    | cons line rest => rw [List.takeWhile_cons_of_neg (by simp [hr line rfl])]
  rw [below, List.dropWhile_cons_of_neg (by simp), List.drop_one, List.tail_cons,
    List.takeWhile_append_of_pos hb', hrest, List.append_nil]

theorem head?_flatMap_sectionLines (issues : List Issue) (severities : List Severity) :
    ∀ line ∈ (severities.flatMap (sectionLines issues)).head?, isHeading line = true := by
  induction severities with
  | nil => simp
  | cons s severities ih =>
    rw [List.flatMap_cons]
    by_cases h : ofSeverity s issues = []
    · rwa [sectionLines_of_eq_nil h]
    · rw [sectionLines_of_ne_nil h]
      intro line hl
      exact isHeading_iff.mpr ⟨s, Option.some.inj hl⟩

theorem heading_mem_flatMap_sectionLines :
    s.heading ∈ severities.flatMap (sectionLines issues) ↔
      s ∈ severities ∧ ofSeverity s issues ≠ [] := by
  have hmem : s.heading ∈ severities.flatMap (sectionLines issues) ↔
      s.heading ∈ (severities.flatMap (sectionLines issues)).filter isHeading := by
    simp [List.mem_filter, isHeading_iff]
  rw [hmem, filter_flatMap_sectionLines, List.mem_map_of_injective Severity.heading_injective,
    List.mem_filter, decide_eq_true_iff]

/-- Below the heading of a severity is what its section consists of. -/
theorem below_flatMap_sectionLines (hn : severities.Nodup) (hs : s ∈ severities) :
    below s (severities.flatMap (sectionLines issues)) =
      if ofSeverity s issues = [] then [] else (ofSeverity s issues).flatMap block ++ [""] := by
  induction severities with
  | nil => cases hs
  | cons t severities ih =>
    obtain ⟨ht, hn⟩ := List.nodup_cons.mp hn
    rw [List.flatMap_cons]
    by_cases hst : s = t
    · subst hst
      by_cases h : ofSeverity s issues = []
      · rw [sectionLines_of_eq_nil h, if_pos h, List.nil_append]
        exact below_eq_nil fun hm => ht (heading_mem_flatMap_sectionLines.mp hm).1
      · rw [sectionLines_of_ne_nil h, if_neg h, List.cons_append]
        exact below_heading (fun line => not_isHeading_of_mem_body)
          (head?_flatMap_sectionLines issues severities)
    · have hfront : s.heading ∉ sectionLines issues t := by
        have hone : sectionLines issues t = [t].flatMap (sectionLines issues) := by simp
        rw [hone, heading_mem_flatMap_sectionLines]
        simp [hst]
      rw [below_append hfront]
      exact ih hn ((List.mem_cons.mp hs).resolve_left hst)

end headings

section arrangement

theorem ofSeverity_eq_filter (s : Severity) (issues : List Issue) :
    ofSeverity s issues = issues.filter (·.severity = s) := rfl

theorem ofSeverity_ne_nil_iff : ofSeverity s issues ≠ [] ↔ ∃ i ∈ issues, i.severity = s := by
  simp [ofSeverity_eq_filter, List.filter_eq_nil_iff]

theorem flatMap_ofSeverity_perm (issues : List Issue) :
    (Severity.all.flatMap fun s => ofSeverity s issues).Perm issues :=
  flatMap_filter_perm Severity.nodup_all fun i _ => i.severity.mem_all

theorem pairwise_flatMap_ofSeverity (issues : List Issue) :
    (Severity.all.flatMap fun s => ofSeverity s issues).Pairwise fun i j =>
      i.severity.rank ≤ j.severity.rank := by
  have hseverity : ∀ {s i}, i ∈ ofSeverity s issues → i.severity = s := fun hi => by
    simpa using (List.mem_filter.mp hi).2
  have hall : Severity.all.Pairwise fun s t => s.rank ≤ t.rank := by decide
  refine List.pairwise_flatMap.mpr ⟨fun s _ => ?_, hall.imp fun hst i hi j hj => ?_⟩
  · refine List.pairwise_of_forall_mem_list fun i hi j hj => ?_
    exact Nat.le_of_eq (by rw [hseverity hi, hseverity hj])
  · rwa [hseverity hi, hseverity hj]

theorem filter_ofSeverity (s t : Severity) (issues : List Issue) :
    (ofSeverity t issues).filter (·.severity = s) = if t = s then ofSeverity s issues else [] := by
  rw [ofSeverity_eq_filter, List.filter_filter]
  split
  · next h => simp [h, ofSeverity_eq_filter]
  · next h => simpa [List.filter_eq_nil_iff] using fun i _ hs ht => h (ht.symm.trans hs)

theorem filter_flatMap_ofSeverity (s : Severity) (issues : List Issue) :
    (Severity.all.flatMap fun s => ofSeverity s issues).filter (·.severity = s) =
      issues.filter (·.severity = s) := by
  simp only [Severity.all, List.flatMap_cons, List.flatMap_nil, List.append_nil, List.filter_append,
    filter_ofSeverity]
  cases s <;> simp [ofSeverity_eq_filter]

end arrangement

section prelude

def prelude (issues : List Issue) : List String := ["", "📋 Lint Results:", summary issues, ""]

theorem lines_of_ne_nil (h : issues ≠ []) :
    lines issues = prelude issues ++ Severity.all.flatMap (sectionLines issues) := by
  cases issues with
  | nil => exact absurd rfl h
  | cons i issues => rfl

/-- The summary continues with a count after its blanks, so it does not open a block. -/
theorem not_opens_summary (issues : List Issue) : opens (summary issues) = false := by
  refine Bool.eq_false_iff.mpr fun ho => ?_
  obtain ⟨r, hr⟩ := Option.isSome_iff_exists.mp ho
  have hbracket : ((summary issues).toList.drop 3).head? = some '[' := by
    rw [Text.after?_eq_some_iff.mp hr]
    simp
  obtain ⟨d, ds, hd⟩ := List.exists_cons_of_ne_nil
    (Nat.toDigits_ne_nil (n := (ofSeverity .error issues).length) (b := 10))
  have hcount : ((summary issues).toList.drop 3).head? = some d := by
    simp [summary, hd]
  have hdigit : d.isDigit = true :=
    Nat.isDigit_of_mem_toDigits (by decide) (by decide) (hd ▸ List.mem_cons_self ..)
  obtain rfl : d = '[' := Option.some.inj (hcount.symm.trans hbracket)
  exact absurd hdigit (by decide)

theorem head?_summary (issues : List Issue) : (summary issues).toList.head? = some ' ' := by
  simp [summary]

theorem not_opens_of_mem_prelude (h : line ∈ prelude issues) : opens line = false := by
  simp only [prelude, List.mem_cons, List.not_mem_nil, or_false] at h
  rcases h with rfl | rfl | rfl | rfl
  · decide
  · decide
  · exact not_opens_summary issues
  · decide

theorem not_isHeading_of_mem_prelude (h : line ∈ prelude issues) : isHeading line = false := by
  simp only [prelude, List.mem_cons, List.not_mem_nil, or_false] at h
  rcases h with rfl | rfl | rfl | rfl
  · decide
  · decide
  · exact not_isHeading (head?_summary issues)
  · decide

theorem heading_not_mem_prelude (s : Severity) (issues : List Issue) :
    s.heading ∉ prelude issues := fun h =>
  Bool.eq_false_iff.mp (not_isHeading_of_mem_prelude h) (isHeading_iff.mpr ⟨s, rfl⟩)

end prelude

theorem blocks_lines (issues : List Issue) :
    blocks (lines issues) = (Severity.all.flatMap fun s => ofSeverity s issues).map block := by
  by_cases h : issues = []
  · subst h
    decide
  · rw [lines_of_ne_nil h, blocks_append_of_not_opens fun _ => not_opens_of_mem_prelude,
      blocks_flatMap_sectionLines]

theorem filter_lines (issues : List Issue) : (lines issues).filter isHeading =
    (Severity.all.filter fun s => ∃ i ∈ issues, i.severity = s).map Severity.heading := by
  have hfilter : Severity.all.filter (fun s => ∃ i ∈ issues, i.severity = s) =
      Severity.all.filter (ofSeverity · issues ≠ []) :=
    List.filter_congr fun s _ => decide_eq_decide.mpr ofSeverity_ne_nil_iff.symm
  rw [hfilter]
  by_cases h : issues = []
  · subst h
    decide
  · have hprelude : (prelude issues).filter isHeading = [] :=
      List.filter_eq_nil_iff.mpr fun line hl =>
        Bool.eq_false_iff.mp (not_isHeading_of_mem_prelude hl)
    rw [lines_of_ne_nil h, List.filter_append, hprelude, List.nil_append,
      filter_flatMap_sectionLines]

theorem blocks_below_lines (s : Severity) (issues : List Issue) :
    blocks (below s (lines issues)) = (ofSeverity s issues).map block := by
  by_cases h : issues = []
  · subst h
    cases s <;> decide
  · rw [lines_of_ne_nil h, below_append (heading_not_mem_prelude s issues),
      below_flatMap_sectionLines Severity.nodup_all s.mem_all]
    split
    · next hs => simp [hs, blocks]
    · have hblank : blocks [""] = [] := by decide
      rw [blocks_flatMap_block (by decide), hblank, List.append_nil]

theorem lines_congr (h : ∀ s, ofSeverity s issues = ofSeverity s issues') :
    lines issues = lines issues' := by
  have hperm : issues.Perm issues' := by
    have hi := flatMap_ofSeverity_perm issues
    simp only [h] at hi
    exact hi.symm.trans (flatMap_ofSeverity_perm issues')
  by_cases hn : issues = []
  · subst hn
    rw [hperm.nil_eq]
  · have hn' : issues' ≠ [] := fun he => hn (he ▸ hperm).eq_nil
    have hprelude : prelude issues = prelude issues' := by simp only [prelude, summary, h]
    have hsection : sectionLines issues = sectionLines issues' := by
      funext s
      rw [sectionLines, h s]
      rfl
    rw [lines_of_ne_nil hn, lines_of_ne_nil hn', hprelude, hsection]

/-- The blocks are those of all issues, the gravest first and issues of one severity in the order of
the list. -/
theorem exists_blocks_lines (issues : List Issue) : ∃ shown : List Issue,
    blocks (lines issues) = shown.map block ∧ shown.Perm issues ∧
      shown.Pairwise (fun i j => i.severity.rank ≤ j.severity.rank) ∧
      ∀ s, shown.filter (·.severity = s) = issues.filter (·.severity = s) :=
  ⟨_, blocks_lines issues, flatMap_ofSeverity_perm issues, pairwise_flatMap_ofSeverity issues,
    fun s => filter_flatMap_ofSeverity s issues⟩

/-- A report shows each issue once, by its kind, location, message and suggestion, the gravest first
and issues of one severity in the order of the list. Below the heading of a severity are its issues,
and there is one heading for each severity that occurs, in their order. If there are issues, then a
summary in front tells the numbers of issues below the three headings, which add up to the number of
all. So lists that agree on the issues of each severity have the same report. -/
theorem report_shows_each_issue_once (issues : List Issue) :
    let printed := lines issues
    let told (i : Issue) := ["   [" ++ i.kind ++ "] " ++ i.location, "      " ++ i.message] ++
      (i.suggestion.map ("      💡 Suggestion: " ++ ·)).toList
    let count (s : Severity) := (blocks (below s printed)).length
    text issues = String.join (printed.map (· ++ "\n")) ∧
    (∃ shown : List Issue, blocks printed = shown.map told ∧ shown.Perm issues ∧
      shown.Pairwise (fun i j => i.severity.rank ≤ j.severity.rank) ∧
      ∀ s, shown.filter (·.severity = s) = issues.filter (·.severity = s)) ∧
    (∀ s, blocks (below s printed) = (issues.filter (·.severity = s)).map told) ∧
    printed.filter isHeading =
      (Severity.all.filter fun s => ∃ i ∈ issues, i.severity = s).map Severity.heading ∧
    Severity.all.map Severity.heading =
      ["❌ Errors (must fix):", "⚠️  Warnings (should fix):", "ℹ️  Info:"] ∧
    (issues = [] → printed = ["✅ No lint issues found!"]) ∧
    (issues ≠ [] → printed.take 4 = ["", "📋 Lint Results:",
      "   " ++ toString (count .error) ++ " error(s), " ++ toString (count .warning) ++
        " warning(s), " ++ toString (count .info) ++ " info(s)", ""]) ∧
    count .error + count .warning + count .info = issues.length ∧
    ∀ issues' : List Issue,
      (∀ s, issues.filter (·.severity = s) = issues'.filter (·.severity = s)) →
      text issues = text issues' := by
  intro printed told count
  have hcount : ∀ s, count s = (ofSeverity s issues).length := fun s => by
    simp only [count, printed, blocks_below_lines, List.length_map]
  refine ⟨rfl, exists_blocks_lines issues, fun s => blocks_below_lines s issues,
    filter_lines issues, rfl, ?_, fun h => ?_, ?_, fun issues' h => ?_⟩
  · rintro rfl
    rfl
  · simp only [hcount, printed, lines_of_ne_nil h]
    rfl
  · have hlength := (flatMap_ofSeverity_perm issues).length_eq
    simp only [Severity.all, List.flatMap_cons, List.flatMap_nil, List.length_append,
      List.length_nil] at hlength
    simp only [hcount]
    omega
  · rw [text, text, lines_congr h]

theorem report_shows_each_issue_once_of_mixed_severities :
    let orphan : Issue := ⟨"a.b", .info, "orphan_option", "'a' is off", some "Add a = \"true\""⟩
    let unknown : Issue := ⟨"c", .warning, "unknown_feature", "   [error] c", none⟩
    let braces : Issue := ⟨"a.b", .error, "unbalanced_braces", "", none⟩
    blocks (lines [orphan, unknown, braces, unknown]) =
        [["   [unbalanced_braces] a.b", "      "], ["   [unknown_feature] c", "         [error] c"],
          ["   [unknown_feature] c", "         [error] c"],
          ["   [orphan_option] a.b", "      'a' is off",
            "      💡 Suggestion: Add a = \"true\""]] ∧
      blocks (below .warning (lines [orphan, unknown, braces, unknown])) =
        [["   [unknown_feature] c", "         [error] c"],
          ["   [unknown_feature] c", "         [error] c"]] ∧
      text [orphan, unknown, braces, unknown] = text [unknown, braces, unknown, orphan] := by
  intro orphan unknown braces
  obtain ⟨-, -, hbelow, -, -, -, -, -, hcongr⟩ :=
    report_shows_each_issue_once [orphan, unknown, braces, unknown]
  refine ⟨by decide, hbelow .warning, hcongr _ fun s => ?_⟩
  cases s <;> rfl

end Report

end ClassAnnotator.Lint
