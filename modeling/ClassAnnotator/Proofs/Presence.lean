import ClassAnnotator.Proofs.Consistency
import ClassAnnotator.Proofs.Removal

/-! # Which features are present

A feature is present when it is the default one, when a flag names it in any spelling, or when the
feature of a flag requires it. A finding about a flag that is not boolean knows this flag alone. So
a feature can be present although the finding says that it stays disabled.
-/

namespace ClassAnnotator

variable {p : Properties} {flags : List Flag} {f : Feature} {key : String}

theorem mem_namedFeatures : f ∈ namedFeatures flags ↔
    f = Feature.default ∨ ∃ x ∈ flags, f = x.feature ∨ f ∈ x.feature.requirements := by
  simp [namedFeatures]

namespace Properties

theorem contains_compile_iff (hf : Feature.lookup key = some f) :
    p.compile.contains key = true ↔ f ∈ namedFeatures p.flags := by
  rw [p.consistent_compile.contains_iff]
  constructor
  · rintro ⟨g, hg, hk⟩
    obtain ⟨f', hf', rfl⟩ := mem_features_compile.mp hg
    have hc : f' ∈ Feature.catalog := namedFeatures_subset (fun _ => feature_mem_catalog) hf'
    rw [Feature.lookup, ← Catalog.lookup_congr (Text.sameIgnoringCase_iff.mp hk)] at hf
    obtain rfl := Option.some.inj ((Feature.lookup_key f' hc).1.symm.trans hf)
    exact hf'
  · intro h
    exact ⟨_, mem_features_compile.mpr ⟨f, h, rfl⟩, Catalog.sameIgnoringCase_of_lookup hf⟩

/-- No feature is present whose flag is said to leave it disabled. -/
def StaysDisabled (p : Properties) : Prop :=
  ∀ i ∈ Lint.issues p, i.kind = "non_boolean_flag" → p.compile.contains i.location = false

theorem not_staysDisabled_of_default_flag :
    let p := Properties.ofList [("data", "yes")]
    (Lint.issues p).map Lint.Issue.message =
        ["@Data is always attached; 'data' has no effect on selection",
          "'yes' is not a boolean; @Data stays disabled"] ∧
      p.compile.contains "data" = true ∧ ¬ p.StaysDisabled := by
  intro p
  have hlookup : Feature.lookup "data" = some .default := by decide
  have hpresent : p.compile.contains "data" = true :=
    (contains_compile_iff hlookup).mpr (by decide)
  refine ⟨by decide, hpresent, fun h => ?_⟩
  have hissue : (Lint.Finding.nonBooleanFlag "data" "yes" .default).issue ∈ Lint.issues p := by
    decide
  have habsent : p.compile.contains "data" = false := h _ hissue rfl
  rw [hpresent] at habsent
  cases habsent

/-- A finding about a flag that is not boolean is right about the flag, which has no effect. Its
feature is present nonetheless when it is the default one, when a flag names it in another spelling,
or when the feature of a flag requires it, and only then. -/
theorem contains_of_nonBooleanFlag (p : Properties) :
    ∀ i ∈ Lint.issues p, i.kind = "non_boolean_flag" → ∃ value f,
      (i.location, value) ∈ p.entries ∧ Feature.lookup i.location = some f ∧
      i.message = "'" ++ value ++ "' is not a boolean; " ++ f.name ++ " stays disabled" ∧
      (p.without [i.location]).compile = p.compile ∧
      (p.compile.contains i.location = true ↔ f = Feature.default ∨
        (∃ x ∈ p.flags, x.key ≠ i.location ∧ x.feature = f) ∨
        ∃ x ∈ p.flags, f ∈ x.feature.requirements) := by
  intro i hi hk
  have hl : i.location ∈ Lint.locations "non_boolean_flag" p :=
    List.mem_map.mpr ⟨i, List.mem_filter.mpr ⟨hi, decide_eq_true hk⟩, rfl⟩
  obtain ⟨key, value, f, he, hp, hf, rfl⟩ := Lint.exists_of_issue_nonBooleanFlag hi hk
  have hne : ∀ x ∈ p.flags, x.key ≠ key := fun x hx hkey =>
    flag_not_ignored hx (by decide) (hkey ▸ hl)
  refine ⟨value, f, he, hf, rfl, compile_without_eq ?_, ?_⟩
  · intro dropped hd
    obtain rfl := List.mem_singleton.mp hd
    exact ⟨_, by decide, hl⟩
  · change p.compile.contains key = true ↔ _
    rw [contains_compile_iff hf, mem_namedFeatures]
    constructor
    · rintro (rfl | ⟨x, hx, rfl | hr⟩)
      · exact .inl rfl
      · exact .inr (.inl ⟨x, hx, hne x hx, rfl⟩)
      · exact .inr (.inr ⟨x, hx, hr⟩)
    · rintro (rfl | ⟨x, hx, -, rfl⟩ | ⟨x, hx, hr⟩)
      · exact .inl rfl
      · exact .inr ⟨x, hx, .inl rfl⟩
      · exact .inr ⟨x, hx, .inr hr⟩

theorem contains_of_nonBooleanFlag_of_each_route :
    let p := Properties.ofList
      [("Data", "yes"), ("builder", "1"), ("BUILDER", "True"), ("noArgsConstructor", "off"),
        ("allArgsConstructor", "true"), ("toString", ""), ("accessors", "FALSE")]
    ((Lint.issues p).filter (·.kind = "non_boolean_flag")).map Lint.Issue.location =
        ["Data", "builder", "noArgsConstructor", "toString"] ∧
      p.compile.contains "Data" = true ∧ p.compile.contains "builder" = true ∧
      p.compile.contains "noArgsConstructor" = true ∧ p.compile.contains "toString" = false := by
  intro p
  have hroutes : ∀ key value f,
      (Lint.Finding.nonBooleanFlag key value f).issue ∈ Lint.issues p →
      Feature.lookup key = some f →
      (p.compile.contains key = true ↔ f = Feature.default ∨
        (∃ x ∈ p.flags, x.key ≠ key ∧ x.feature = f) ∨
        ∃ x ∈ p.flags, f ∈ x.feature.requirements) := by
    intro key value f hi hf
    obtain ⟨_, g, -, hg, -, -, hroutes⟩ := contains_of_nonBooleanFlag p _ hi rfl
    obtain rfl := Option.some.inj (hf.symm.trans hg)
    exact hroutes
  let builder : Feature := ⟨"builder", "@Builder", "lombok.Builder", []⟩
  let noArgs : Feature :=
    ⟨"noArgsConstructor", "@NoArgsConstructor", "lombok.NoArgsConstructor", []⟩
  let toString : Feature := ⟨"toString", "@ToString", "lombok.ToString", []⟩
  refine ⟨by decide, (hroutes "Data" "yes" .default (by decide) (by decide)).mpr (by decide),
    (hroutes "builder" "1" builder (by decide) (by decide)).mpr (by decide),
    (hroutes "noArgsConstructor" "off" noArgs (by decide) (by decide)).mpr (by decide), ?_⟩
  exact Bool.eq_false_iff.mpr
    (mt (hroutes "toString" "" toString (by decide) (by decide)).mp (by decide))

end Properties

end ClassAnnotator
