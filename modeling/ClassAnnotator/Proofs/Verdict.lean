import ClassAnnotator.CommandLine.Command
import ClassAnnotator.Proofs.Braces
import ClassAnnotator.Proofs.JsonText
import ClassAnnotator.Proofs.PrintedReport

/-! # The verdict of linting

The lint command prints the issues of a configuration, or only its errors. If it is asked to, it
fails when there are errors, that is, when the braces of a setting do not balance. What is printed
has no influence on the verdict, and the verdict has none on what is printed.
-/

namespace ClassAnnotator

variable {p : Properties}

/-- A setting has a value with different numbers of opening and closing braces. -/
def Properties.Unbalanced (p : Properties) : Prop :=
  ∃ e ∈ p.entries, '.' ∈ e.1.toList ∧ ¬ Balanced e.2

instance (p : Properties) : Decidable p.Unbalanced :=
  inferInstanceAs (Decidable (∃ e ∈ p.entries, _))

namespace Lint

/-- The issues that are shown: all, or only the errors. -/
def shown (errorsOnly : Bool) (issues : List Issue) : List Issue :=
  if errorsOnly then issues.filter (·.severity == .error) else issues

theorem hasErrors_shown (errorsOnly : Bool) (issues : List Issue) :
    hasErrors (shown errorsOnly issues) = hasErrors issues := by
  cases errorsOnly with
  | false => rfl
  | true => simp [shown, hasErrors, List.any_filter]

theorem hasErrors_iff_unbalanced : hasErrors (issues p) = true ↔ p.Unbalanced := by
  rw [hasErrors_iff]
  constructor
  · rintro ⟨y, hy, hb⟩
    obtain ⟨hm, -⟩ := Properties.mem_settings.mp hy
    exact ⟨_, hm, by simp [Setting.key], hb⟩
  · rintro ⟨e, he, hp, hb⟩
    obtain ⟨y, hy⟩ := Properties.exists_setting? hp
    obtain ⟨rfl, -⟩ := Properties.setting?_eq_some_iff.mp hy
    exact ⟨y, List.mem_filterMap.mpr ⟨_, he, hy⟩, hb⟩

theorem Issue.texts_document (i : Issue) (n : ℕ) : i.document.Texts (n + 1) := by
  refine .table ?_ fun m hm => ?_
  · cases i.suggestion <;> simp
  · rcases List.mem_append.mp hm with hm | hm
    · simp only [List.mem_cons, List.not_mem_nil, or_false] at hm
      rcases hm with rfl | rfl | rfl | rfl <;> exact .text ..
    · obtain ⟨s, -, rfl⟩ := Option.map_eq_some_iff.mp (Option.mem_toList.mp hm)
      exact .text ..

theorem read?_pretty_issues (issues : List Issue) :
    Json.read? (Json.pretty (.list (issues.map Issue.document)) ++ "\n") =
      some (.list (issues.map Issue.document)) := by
  have htexts : (Document.list (issues.map Issue.document)).Texts Json.depthLimit := by
    refine .list fun d hd => ?_
    obtain ⟨i, -, rfl⟩ := List.mem_map.mp hd
    exact i.texts_document _
  exact Json.read?_pretty htexts (by simp [Json.LexState.isSpace])

end Lint

namespace Command

variable {read : String → Option String} {source : PropertySource}

theorem execute_lint_of_ok (h : source.load read = .ok p) (failOnError errorsOnly json : Bool) :
    (lint source failOnError errorsOnly json).execute read =
      ⟨lintText (Lint.shown errorsOnly (Lint.issues p)) json, [],
        if failOnError = true ∧ p.Unbalanced then some (.lint source) else none⟩ := by
  have herrors : (failOnError && Lint.hasErrors (Lint.shown errorsOnly (Lint.issues p))) = true ↔
      failOnError = true ∧ p.Unbalanced := by
    rw [Bool.and_eq_true, Lint.hasErrors_shown, Lint.hasErrors_iff_unbalanced]
  simp only [execute, h, ← herrors]
  rfl

theorem execute_lint_of_error {e : LoadError} (h : source.load read = .error e)
    (failOnError errorsOnly json : Bool) :
    (lint source failOnError errorsOnly json).execute read = ⟨"", [], some (.load e)⟩ := by
  rw [execute, h]
  rfl

/-- A source that cannot be loaded is the only error, and nothing is printed. Otherwise the issues
of the loaded configuration are printed, all of them or only the errors. A report shows each of them
once, by its kind, location, message and suggestion. A JSON text is read back as a table for each of
them in their order, with these members and the severity. The command fails when it is asked to and
a value is not balanced. How issues are shown has no influence on the error, and whether the command
may fail has none on what is printed. -/
theorem lint_of_load (read : String → Option String) (source : PropertySource) :
    ((∃ e, source.load read = .error e ∧ ∀ failOnError errorsOnly json,
      (lint source failOnError errorsOnly json).execute read = ⟨"", [], some (.load e)⟩) ∨
    ∃ p, source.load read = .ok p ∧ ∀ failOnError errorsOnly json,
      let shown := Lint.shown errorsOnly (Lint.issues p)
      let outcome := (lint source failOnError errorsOnly json).execute read
      let printed := Lint.Report.lines shown
      let documents := shown.map fun i => Document.table
        ([("location", .text i.location),
          ("severity", .text (match i.severity with
            | .error => "error" | .warning => "warning" | .info => "info")),
          ("kind", .text i.kind), ("message", .text i.message)] ++
        (i.suggestion.map fun s => ("suggestion", Document.text s)).toList)
      (json = false → outcome.stdout = String.join (printed.map (· ++ "\n")) ∧
        (shown = [] → printed = ["✅ No lint issues found!"]) ∧ ∃ told : List Lint.Issue,
          Lint.Report.blocks printed = told.map (fun i =>
            ["   [" ++ i.kind ++ "] " ++ i.location, "      " ++ i.message] ++
              (i.suggestion.map ("      💡 Suggestion: " ++ ·)).toList) ∧
          told.Perm shown ∧ ∀ s, told.filter (·.severity = s) = shown.filter (·.severity = s)) ∧
      (json = true → outcome.stdout = Json.pretty (.list documents) ++ "\n" ∧
        Json.read? outcome.stdout = some (.list documents)) ∧
      outcome.error = if failOnError = true ∧ p.Unbalanced then some (.lint source) else none) ∧
    ∀ failOnError errorsOnly json failOnError' errorsOnly' json',
      ((lint source failOnError errorsOnly json).execute read).error =
        ((lint source failOnError errorsOnly' json').execute read).error ∧
      ((lint source failOnError errorsOnly json).execute read).stdout =
        ((lint source failOnError' errorsOnly json).execute read).stdout := by
  cases hload : source.load read with
  | error e =>
    have hexecute := execute_lint_of_error hload
    refine ⟨.inl ⟨e, rfl, hexecute⟩, fun _ _ _ _ _ _ => ?_⟩
    simp only [hexecute, and_self]
  | ok p =>
    have hexecute := execute_lint_of_ok hload
    refine ⟨.inr ⟨p, rfl, fun failOnError errorsOnly json => ?_⟩, fun _ _ _ _ _ _ => ?_⟩
    · intro shown outcome printed documents
      have houtcome : outcome = _ := hexecute failOnError errorsOnly json
      rw [houtcome]
      refine ⟨?_, ?_, rfl⟩
      · rintro rfl
        obtain ⟨told, hblocks, hperm, -, hfilter⟩ := Lint.Report.exists_blocks_lines shown
        refine ⟨rfl, fun hnone => ?_, told, hblocks, hperm, hfilter⟩
        simp only [printed, hnone, Lint.Report.lines]
      · rintro rfl
        have hdocuments : documents = shown.map Lint.Issue.document := rfl
        rw [hdocuments]
        exact ⟨rfl, Lint.read?_pretty_issues shown⟩
    · simp only [hexecute, and_self]

end Command

end ClassAnnotator
