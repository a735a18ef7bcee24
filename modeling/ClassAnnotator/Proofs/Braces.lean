import ClassAnnotator.Proofs.Ownership
import ClassAnnotator.Proofs.Unwrapping

/-! # Braces

Cutting, trimming and quoting keep the braces of a value, and an array literal adds one of each
kind around them. So an option is balanced exactly when its value is, and the findings about values
tell which options are not. Without errors every annotation is balanced.
-/

namespace ClassAnnotator

namespace Text

/-- How many braces more are opened than closed. -/
def excess (cs : List Char) : ℤ := cs.count '{' - cs.count '}'

def braces (cs : List Char) : List Char := cs.filter fun c => c = '{' ∨ c = '}'

variable {c : Char} {cs glue : List Char}

@[simp] theorem excess_nil : excess [] = 0 := rfl

@[simp] theorem excess_append (as bs : List Char) : excess (as ++ bs) = excess as + excess bs := by
  simp only [excess, List.count_append]
  omega

theorem excess_cons (c : Char) (cs : List Char) : excess (c :: cs) = excess [c] + excess cs :=
  excess_append [c] cs

theorem excess_flatten_eq_zero {parts : List (List Char)} (h : ∀ part ∈ parts, excess part = 0) :
    excess parts.flatten = 0 := by
  induction parts with
  | nil => rfl
  | cons part parts ih =>
    obtain ⟨hpart, hparts⟩ := List.forall_mem_cons.mp h
    rw [List.flatten_cons, excess_append, hpart, ih hparts]
    rfl

@[simp] theorem braces_append (as bs : List Char) : braces (as ++ bs) = braces as ++ braces bs :=
  List.filter_append ..

theorem braces_cons (c : Char) (cs : List Char) : braces (c :: cs) = braces [c] ++ braces cs :=
  braces_append [c] cs

theorem braces_eq_nil_iff : braces cs = [] ↔ '{' ∉ cs ∧ '}' ∉ cs := by
  rw [braces, List.filter_eq_nil_iff]
  constructor
  · intro h
    exact ⟨fun hm => h _ hm (by decide), fun hm => h _ hm (by decide)⟩
  · rintro ⟨ho, hc⟩ c hm hb
    rcases of_decide_eq_true hb with rfl | rfl
    · exact ho hm
    · exact hc hm

theorem braces_of_blank (h : ∀ c ∈ cs, isBlank c = true) : braces cs = [] :=
  braces_eq_nil_iff.mpr ⟨fun hm => Bool.noConfusion (h _ hm), fun hm => Bool.noConfusion (h _ hm)⟩

theorem excess_braces (cs : List Char) : excess (braces cs) = excess cs := by
  rw [excess, braces, List.count_filter (by decide), List.count_filter (by decide), excess]

theorem braces_wrapWords (cs : List Char) : braces (wrapWords cs) = braces cs := by
  have hquotes : ∀ l : List Char, braces (l.filter (· ≠ '"')) = braces l := by
    intro l
    rw [braces, braces, List.filter_filter]
    refine List.filter_congr fun c _ => ?_
    by_cases h : c = '"'
    · subst h
      decide
    · simp [h]
  rw [← hquotes, wrapWords, filter_wrapWordsFrom, hquotes]

theorem braces_dropWhile_isBlank (cs : List Char) : braces (cs.dropWhile isBlank) = braces cs := by
  have hblank : braces (cs.takeWhile isBlank) = [] :=
    braces_of_blank fun _ => List.all_eq_true.mp List.all_takeWhile _
  conv_rhs => rw [← List.takeWhile_append_dropWhile (p := isBlank) (l := cs), braces_append, hblank]
  rfl

theorem braces_trimRight (cs : List Char) : braces (trimRight cs) = braces cs := by
  have hblank : braces (cs.rtakeWhile isBlank) = [] :=
    braces_of_blank fun _ => List.mem_rtakeWhile_imp
  conv_rhs =>
    rw [← List.rdropWhile_append_rtakeWhile (p := isBlank) (l := cs), braces_append, hblank]
  rw [List.append_nil, trimRight_eq_rdropWhile]

theorem braces_trim (cs : List Char) : braces (trim cs) = braces cs := by
  rw [trim, braces_trimRight, braces_dropWhile_isBlank]

theorem braces_intercalate (hglue : braces glue = []) (parts : List (List Char)) :
    braces (glue.intercalate parts) = (parts.map braces).flatten := by
  induction parts with
  | nil => rfl
  | cons part parts ih =>
    cases parts with
    | nil => simp
    | cons q qs =>
      rw [List.intercalate_cons_cons, braces_append, braces_append, hglue, ih, List.append_nil]
      rfl

end Text

namespace Quoting

open Text

theorem braces_items (cs : List Char) :
    braces ([',', ' '].intercalate (items cs)) = braces cs := by
  have hparts : (items cs).map braces = (splitEach ',' cs).map braces := by
    simp [items, braces_trim]
  have hcomma : braces [','] = [] := rfl
  rw [braces_intercalate rfl, hparts, ← braces_intercalate hcomma, splitEach_eq_splitOn,
    List.intercalate_splitOn]

/-- The braces of a literal are those of the value, between two more if it is an array. -/
theorem braces_literalChars (cs : List Char) :
    braces (literalChars cs) = if ',' ∈ cs then '{' :: braces cs ++ ['}'] else braces cs := by
  split
  · next h =>
    rw [literalChars_of_mem h, braces_append, braces_cons, braces_wrapWords, braces_items]
    rfl
  · next h =>
    rw [literalChars_of_not_mem h, quoteChars]
    split
    · rfl
    · exact braces_wrapWords cs

theorem excess_literalChars (cs : List Char) : excess (literalChars cs) = excess cs := by
  rw [← excess_braces, braces_literalChars]
  split
  · have hopen : excess ['{'] = 1 := rfl
    have hclose : excess ['}'] = -1 := rfl
    rw [excess_append, excess_cons, excess_braces, hopen, hclose]
    omega
  · exact excess_braces cs

end Quoting

/-- As many braces are closed as opened. -/
def Balanced (text : String) : Prop := text.toList.count '{' = text.toList.count '}'

instance (text : String) : Decidable (Balanced text) := inferInstanceAs (Decidable (_ = _))

variable {p : Properties} {y : Setting} {e : String × String} {g : SelectedFeature}

theorem balanced_iff_excess {text : String} : Balanced text ↔ Text.excess text.toList = 0 := by
  rw [Balanced, Text.excess]
  omega

def Setting.Unbraced (y : Setting) : Prop := '{' ∉ y.name.toList ∧ '}' ∉ y.name.toList

instance (y : Setting) : Decidable y.Unbraced := inferInstanceAs (Decidable (_ ∧ _))

theorem Setting.Unbraced.braces_fragment (h : y.Unbraced) :
    Text.braces y.fragment.toList = Text.braces (Quoting.literalChars y.value.toList) := by
  rw [toList_fragment, Text.braces_append, Text.braces_eq_nil_iff.mpr h]
  rfl

theorem Setting.Unbraced.excess_fragment (h : y.Unbraced) :
    Text.excess y.fragment.toList = Text.excess y.value.toList := by
  rw [← Text.excess_braces, h.braces_fragment, Text.excess_braces, Quoting.excess_literalChars]

theorem Setting.Unbraced.balanced_fragment_iff (h : y.Unbraced) :
    Balanced y.fragment ↔ Balanced y.value := by
  rw [balanced_iff_excess, balanced_iff_excess, h.excess_fragment]

theorem braces_name : ∀ f ∈ Feature.catalog, Text.braces f.name.toList = [] := by decide

theorem SelectedFeature.braces_render (hg : g.feature ∈ Feature.catalog) :
    Text.braces g.render.toList = (g.options.map fun o => Text.braces o.toList).flatten := by
  have hname := braces_name g.feature hg
  rw [toList_render]
  split
  · next h => rw [hname, List.isEmpty_iff.mp h]; rfl
  · rw [Text.braces_append, Text.braces_append, Text.braces_cons, hname,
      Text.braces_intercalate rfl, List.map_map]
    exact List.append_nil _

theorem SelectedFeature.balanced_render (hg : g.feature ∈ Feature.catalog)
    (ho : ∀ o ∈ g.options, Balanced o) : Balanced g.render := by
  rw [balanced_iff_excess, ← Text.excess_braces, braces_render hg]
  refine Text.excess_flatten_eq_zero fun part hpart => ?_
  obtain ⟨o, hm, rfl⟩ := List.mem_map.mp hpart
  rw [Text.excess_braces]
  exact balanced_iff_excess.mp (ho o hm)

namespace Lint

theorem reported_unbalancedBraces (hy : Properties.setting? e = some y) :
    reported p "unbalanced_braces" e = true ↔ ¬ Balanced y.value := by
  rw [reported, entryFindings_setting hy, optionFindings, Balanced]
  split <;> split <;> simp_all [Finding.kind]

theorem key_mem_locations_unbalancedBraces (hy : y ∈ p.settings) :
    y.key ∈ locations "unbalanced_braces" p ↔ ¬ Balanced y.value := by
  obtain ⟨hm, ho⟩ := Properties.mem_settings.mp hy
  have hs : Properties.setting? (y.key, y.value) = some y :=
    Properties.setting?_eq_some_iff.mpr ⟨rfl, ho⟩
  rw [← reported_unbalancedBraces hs]
  exact mem_locations_iff_reported hm

theorem severity_issue_eq_error_iff (f : Finding) :
    f.issue.severity = .error ↔ f.kind = "unbalanced_braces" := by
  cases f <;> simp [Finding.issue, Finding.severity, Finding.kind]

theorem hasErrors_iff : hasErrors (issues p) = true ↔ ∃ y ∈ p.settings, ¬ Balanced y.value := by
  have hreported : hasErrors (issues p) = true ↔
      ∃ e ∈ p.entries, reported p "unbalanced_braces" e = true := by
    simp only [hasErrors, issues, findings, List.any_map, List.any_flatMap, List.any_eq_true,
      reported, Function.comp_apply, beq_iff_eq, severity_issue_eq_error_iff, decide_eq_true_iff]
  rw [hreported]
  constructor
  · rintro ⟨e, he, hr⟩
    by_cases hp : '.' ∈ e.1.toList
    · obtain ⟨y, hy⟩ := Properties.exists_setting? hp
      exact ⟨y, List.mem_filterMap.mpr ⟨e, he, hy⟩, (reported_unbalancedBraces hy).mp hr⟩
    · have := reported_flag_cases hp hr
      simp at this
  · rintro ⟨y, hy, hb⟩
    obtain ⟨e, he, hs⟩ := List.mem_filterMap.mp hy
    exact ⟨e, he, (reported_unbalancedBraces hs).mpr hb⟩

theorem balanced_of_not_hasErrors (h : hasErrors (issues p) = false) (hy : y ∈ p.settings) :
    Balanced y.value := by
  by_contra hb
  rw [hasErrors_iff.mpr ⟨y, hy, hb⟩] at h
  cases h

end Lint

namespace Properties

/-- The options that are not balanced are those of the settings with an error that are no orphans.
So without errors every annotation is balanced. -/
theorem unbalanced_options_perm (hp : ∀ y ∈ p.settings, y.Unbraced) :
    (p.compile.options.filter (¬ Balanced ·)).Perm
      ((p.settings.filter fun y => y.key ∈ Lint.locations "unbalanced_braces" p ∧
        y.key ∉ Lint.locations "orphan_option" p).map Setting.fragment) ∧
    (Lint.hasErrors (Lint.issues p) = false → ∀ text ∈ p.compile.annotations, Balanced text) := by
  constructor
  · have hfilter : ((ownedSettings p.flags p.settings).map Setting.fragment).filter
        (¬ Balanced ·) = (p.settings.filter fun y =>
          y.key ∈ Lint.locations "unbalanced_braces" p ∧
            y.key ∉ Lint.locations "orphan_option" p).map Setting.fragment := by
      rw [List.filter_map, ownedSettings_eq_filter_locations, List.filter_filter]
      refine congrArg _ (List.filter_congr fun y hy => ?_)
      simp [(hp y hy).balanced_fragment_iff, Lint.key_mem_locations_unbalancedBraces hy]
    exact hfilter ▸ p.options_compile.filter _
  · intro herrors text htext
    obtain ⟨g, hg, rfl⟩ := List.mem_map.mp htext
    refine SelectedFeature.balanced_render (mem_catalog_of_mem_features hg) fun o ho => ?_
    obtain ⟨y, hy, rfl⟩ := exists_setting_of_mem_options hg ho
    exact (hp y hy).balanced_fragment_iff.mpr (Lint.balanced_of_not_hasErrors herrors hy)

theorem unbalanced_options_perm_of_arrays_and_orphans :
    let p := Properties.ofList
      [("toString.of", "\x7d"), ("ToString", "true"), ("ToString.of", "a, \x7bb "),
        ("ToString.exclude", "\x7d , \x7b"), ("accessors", "TRUE"), ("accessors.a", "\x7d\x7d")]
    let q := Properties.ofList [("builder", "true"), ("builder.a", "b,\x7d\x7b"), ("frob.a", "1")]
    (p.compile.options.filter (¬ Balanced ·)).Perm
        ["of=\x7b\"a\", \x7b\"b\"\x7d", "a=\x7d\x7d"] ∧
      ∀ text ∈ q.compile.annotations, Balanced text := by
  intro p q
  have hp : ∀ y ∈ p.settings, y.Unbraced := by decide
  have hq : ∀ y ∈ q.settings, y.Unbraced := by decide
  obtain ⟨hoptions, -⟩ := unbalanced_options_perm hp
  obtain ⟨-, hannotations⟩ := unbalanced_options_perm hq
  exact ⟨hoptions.trans (.of_eq (by decide)), hannotations (by decide)⟩

end Properties

end ClassAnnotator
