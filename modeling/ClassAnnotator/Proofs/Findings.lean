import ClassAnnotator.Lint.Finding
import ClassAnnotator.Proofs.Entry

/-! # Where findings are located

A finding is located at the key of its entry, and an entry has at most one finding of each kind.
So the locations of a kind are the keys of the entries that are reported for it, in order. An
option is reported as an orphan exactly when no flag has its owner as key.
-/

namespace ClassAnnotator.Lint

def locations (kind : String) (p : Properties) : List String :=
  ((issues p).filter (·.kind = kind)).map Issue.location

/-- An entry has a finding of the given kind. -/
def reported (p : Properties) (kind : String) (e : String × String) : Bool :=
  (entryFindings p e).any (·.kind = kind)

variable {p : Properties} {e : String × String} {f : Finding} {kind key value owner : String}
  {x : Flag} {y : Setting}

theorem location_of_mem_entryFindings (h : f ∈ entryFindings p e) : f.location = e.1 := by
  unfold entryFindings flagFindings optionFindings at h
  split at h
  · split at h
    · simp_all [Finding.location]
    · rcases List.mem_append.mp h with h | h <;> split at h <;> simp_all [Finding.location]
  · rcases List.mem_append.mp h with h | h <;> split at h <;> simp_all [Finding.location]

theorem nodup_kinds (p : Properties) (e : String × String) :
    ((entryFindings p e).map Finding.kind).Nodup := by
  unfold entryFindings flagFindings optionFindings
  split
  · split
    · simp
    · split <;> split <;> simp [Finding.kind]
  · split <;> split <;> simp [Finding.kind]

theorem map_location_filter {l : List Finding} (hn : (l.map Finding.kind).Nodup)
    (hl : ∀ f ∈ l, f.location = key) :
    (l.filter (·.kind = kind)).map Finding.location =
      if l.any (·.kind = kind) then [key] else [] := by
  induction l with
  | nil => rfl
  | cons f l ih =>
    obtain ⟨hf, hn⟩ := List.nodup_cons.mp hn
    have ih := ih hn fun g hg => hl g (List.mem_cons_of_mem _ hg)
    by_cases h : f.kind = kind
    · have hnone : l.filter (·.kind = kind) = [] := by
        refine List.filter_eq_nil_iff.mpr fun g hg => ?_
        simpa using fun e => hf (List.mem_map.mpr ⟨g, hg, e.trans h.symm⟩)
      simp [h, hnone, hl f]
    · simpa [h] using ih

theorem locations_eq (kind : String) (p : Properties) :
    locations kind p = (p.entries.filter (reported p kind)).map Prod.fst := by
  have hentry : ∀ e, ((entryFindings p e).filter (·.kind = kind)).map Finding.location =
      if reported p kind e then [e.1] else [] := fun e =>
    map_location_filter (nodup_kinds p e) fun _ hf => location_of_mem_entryFindings hf
  have hlist : locations kind p =
      p.entries.flatMap fun e =>
        ((entryFindings p e).filter (·.kind = kind)).map Finding.location := by
    simp only [locations, issues, findings, List.filter_map, List.map_map, List.filter_flatMap,
      List.map_flatMap]
    rfl
  rw [hlist]
  simp only [hentry]
  induction p.entries with
  | nil => rfl
  | cons e r ih => by_cases h : reported p kind e = true <;> simp [h, ih]

theorem mem_locations :
    key ∈ locations kind p ↔ ∃ value, (key, value) ∈ p.entries ∧ reported p kind (key, value) := by
  simp [locations_eq]

theorem mem_locations_iff_reported (h : e ∈ p.entries) :
    e.1 ∈ locations kind p ↔ reported p kind e = true := by
  rw [mem_locations]
  constructor
  · rintro ⟨value, hv, hr⟩
    rwa [Properties.value_unique hv h] at hr
  · exact fun hr => ⟨e.2, h, hr⟩

section

variable (hp : '.' ∉ e.1.toList)
include hp

theorem entryFindings_flag : entryFindings p e = flagFindings e.1 e.2 := by
  rw [entryFindings, Text.cut?_eq_none_iff.mpr hp]

theorem reported_unknownFeature :
    reported p "unknown_feature" e = true ↔ Feature.lookup e.1 = none := by
  rw [reported, entryFindings_flag hp, flagFindings]
  cases Feature.lookup e.1 <;> simp [Finding.kind]

theorem reported_nonBooleanFlag :
    reported p "non_boolean_flag" e = true ↔ (Feature.lookup e.1).isSome = true ∧
      Text.sameIgnoringCase e.2 "true" = false ∧ Text.sameIgnoringCase e.2 "false" = false := by
  rw [reported, entryFindings_flag hp, flagFindings]
  cases Feature.lookup e.1 with
  | none => simp [Finding.kind]
  | some f =>
    cases Text.sameIgnoringCase e.2 "true" <;> cases Text.sameIgnoringCase e.2 "false" <;>
      dsimp only <;> split <;> simp [Finding.kind]

theorem reported_flag_cases (h : reported p kind e = true) :
    kind = "unknown_feature" ∨ kind = "default_feature_flag" ∨ kind = "non_boolean_flag" := by
  rw [reported, entryFindings_flag hp, flagFindings] at h
  obtain ⟨f, hf, hk⟩ := List.any_eq_true.mp h
  obtain rfl := of_decide_eq_true hk
  split at hf
  · rw [List.mem_singleton.mp hf]
    exact .inl rfl
  · rcases List.mem_append.mp hf with hf | hf <;> split at hf <;> simp_all [Finding.kind]

theorem not_reported_orphanOption : reported p "orphan_option" e = false := by
  refine Bool.eq_false_iff.mpr fun h => ?_
  simpa using reported_flag_cases hp h

end

section

variable (hy : Properties.setting? e = some y)
include hy

theorem entryFindings_setting :
    entryFindings p e = optionFindings p e.1 y.owner y.value := by
  obtain ⟨he, ho⟩ := Properties.setting?_eq_some_iff.mp hy
  have hc : Text.cut? '.' e.1 = some (y.owner, y.name) :=
    Text.cut?_eq_some_iff.mpr ⟨by rw [he]; rfl, ho⟩
  simp only [entryFindings, hc]
  rw [he]

theorem reported_setting_cases (h : reported p kind e = true) :
    kind = "orphan_option" ∨ kind = "unbalanced_braces" := by
  rw [reported, entryFindings_setting hy, optionFindings] at h
  obtain ⟨f, hf, hk⟩ := List.any_eq_true.mp h
  obtain rfl := of_decide_eq_true hk
  rcases List.mem_append.mp hf with hf | hf <;> split at hf <;> simp_all [Finding.kind]

theorem reported_orphanOption :
    reported p "orphan_option" e = true ↔ ownerEnabled p y.owner = false := by
  rw [reported, entryFindings_setting hy, optionFindings]
  split <;> split <;> simp_all [Finding.kind]

end

theorem ownerEnabled_iff (h : '.' ∉ owner.toList) :
    ownerEnabled p owner = true ↔ owner ∈ p.flags.map Flag.key := by
  constructor
  · intro he
    rw [ownerEnabled, Bool.and_eq_true] at he
    cases hv : p.get? owner with
    | none => simp [hv] at he
    | some value =>
      simp only [hv] at he
      obtain ⟨f, hf⟩ := Option.isSome_iff_exists.mp he.2
      have hx : ⟨owner, f⟩ ∈ p.flags := Properties.mem_flags.mpr
        ⟨h, hf, value, Properties.get?_eq_some_iff.mp hv, he.1⟩
      exact List.mem_map.mpr ⟨_, hx, rfl⟩
  · intro hm
    obtain ⟨x, hx, rfl⟩ := List.mem_map.mp hm
    obtain ⟨-, hf, value, hv, ht⟩ := Properties.mem_flags.mp hx
    simp [ownerEnabled, Properties.get?_eq_some_iff.mpr hv, ht, hf]

theorem locations_orphanOption (p : Properties) :
    locations "orphan_option" p =
      (p.settings.filter (·.owner ∉ p.flags.map Flag.key)).map Setting.key := by
  rw [locations_eq, Properties.settings, List.filter_filterMap, List.map_filterMap,
    ← List.filterMap_eq_map, List.filterMap_filter]
  refine List.filterMap_congr fun e _ => ?_
  cases hy : Properties.setting? e with
  | none =>
    simp [not_reported_orphanOption (Properties.setting?_eq_none_iff.mp hy)]
  | some y =>
    obtain ⟨he, ho⟩ := Properties.setting?_eq_some_iff.mp hy
    have hr := reported_orphanOption (p := p) hy
    rw [← Bool.not_eq_true, ownerEnabled_iff ho] at hr
    rw [Option.filter_some]
    by_cases hm : y.owner ∈ p.flags.map Flag.key
    · rw [if_neg (fun h => hr.mp h hm), if_neg (by simpa using hm), Option.map_none]
    · rw [if_pos (hr.mpr hm), if_pos (decide_eq_true hm), Option.map_some, he]
      rfl

theorem key_mem_locations_orphanOption (hy : y ∈ p.settings) :
    y.key ∈ locations "orphan_option" p ↔ y.owner ∉ p.flags.map Flag.key := by
  rw [locations_orphanOption]
  constructor
  · intro h
    obtain ⟨z, hz, he⟩ := List.mem_map.mp h
    obtain ⟨hz, ho⟩ := List.mem_filter.mp hz
    obtain rfl := List.inj_on_of_nodup_map p.nodup_setting_keys hz hy he
    exact of_decide_eq_true ho
  · exact fun h => List.mem_map.mpr ⟨y, List.mem_filter.mpr ⟨hy, decide_eq_true h⟩, rfl⟩

section

variable {i : Issue}

/-- An issue tells of a finding about an entry, which is reported for its kind. -/
theorem exists_of_mem_issues (h : i ∈ issues p) :
    ∃ e ∈ p.entries, reported p i.kind e = true ∧ ∃ f ∈ entryFindings p e, i = f.issue := by
  obtain ⟨f, hf, rfl⟩ := List.mem_map.mp h
  obtain ⟨e, he, hf⟩ := List.mem_flatMap.mp hf
  exact ⟨e, he, List.any_eq_true.mpr ⟨f, hf, decide_eq_true rfl⟩, f, hf, rfl⟩

theorem exists_setting_of_reported_orphan (h : reported p "orphan_option" e = true) :
    ∃ y, Properties.setting? e = some y := by
  refine Properties.exists_setting? ?_
  by_contra hp
  rw [not_reported_orphanOption hp] at h
  cases h

theorem exists_of_issue_nonBooleanFlag (h : i ∈ issues p) (hk : i.kind = "non_boolean_flag") :
    ∃ key value f, (key, value) ∈ p.entries ∧ '.' ∉ key.toList ∧ Feature.lookup key = some f ∧
      i = (Finding.nonBooleanFlag key value f).issue := by
  obtain ⟨⟨key, value⟩, he, hr, g, hg, rfl⟩ := exists_of_mem_issues h
  rw [hk] at hr
  have hp : '.' ∉ key.toList := by
    intro hp
    obtain ⟨y, hy⟩ := Properties.exists_setting? (e := (key, value)) hp
    simpa using reported_setting_cases hy hr
  obtain ⟨hf, -⟩ := (reported_nonBooleanFlag hp).mp hr
  obtain ⟨f, hf⟩ := Option.isSome_iff_exists.mp hf
  refine ⟨key, value, f, he, hp, hf, ?_⟩
  rw [entryFindings_flag hp] at hg
  cases g <;> simp_all [flagFindings, Finding.issue, Finding.kind]

theorem exists_of_issue_orphanOption (h : i ∈ issues p) (hk : i.kind = "orphan_option") :
    ∃ y ∈ p.settings, y.owner ∉ p.flags.map Flag.key ∧
      i = (Finding.orphanOption y.key y.owner).issue := by
  obtain ⟨e, he, hr, g, hg, rfl⟩ := exists_of_mem_issues h
  rw [hk] at hr
  obtain ⟨y, hy⟩ := exists_setting_of_reported_orphan hr
  obtain ⟨hs, ho⟩ := Properties.setting?_eq_some_iff.mp hy
  rw [reported_orphanOption hy, ← Bool.not_eq_true, ownerEnabled_iff ho] at hr
  refine ⟨y, List.mem_filterMap.mpr ⟨e, he, hy⟩, hr, ?_⟩
  rw [entryFindings_setting hy] at hg
  cases g <;> simp_all [optionFindings, Finding.issue, Finding.kind]

end

end ClassAnnotator.Lint
