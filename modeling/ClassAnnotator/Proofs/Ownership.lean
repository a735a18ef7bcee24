import ClassAnnotator.Proofs.Described
import ClassAnnotator.Proofs.Findings

/-! # Every option goes to its owner

The options of a compiled configuration are the fragments of the settings whose owner is the key
of a flag, each exactly once. The findings tell the other settings apart as orphans, so no option
is lost, given twice or given against a finding.
-/

namespace ClassAnnotator

namespace Selection

def options (s : Selection) : List String := s.features.flatMap SelectedFeature.options

end Selection

variable {flags : List Flag} {settings : List Setting}

/-- The settings whose owner is the key of one of the flags. -/
def ownedSettings (flags : List Flag) (settings : List Setting) : List Setting :=
  settings.filter (·.owner ∈ flags.map Flag.key)

/-- Each owned setting gives its fragment to one feature. -/
theorem options_described (hn : (flags.map Flag.key).Nodup) :
    (described flags settings).options.Perm
      ((ownedSettings flags settings).map Setting.fragment) := by
  have hfeatures : (described flags settings).options =
      ((namedFeatures flags).eraseDups.flatMap fun f => flags.filter (·.feature = f)).flatMap
        fun x => (settings.filter (·.owner = x.key)).map Setting.fragment := by
    simp [Selection.options, described, Selection.features_listing, collected, List.flatMap_map,
      List.flatMap_assoc]
  have hflags : ((namedFeatures flags).eraseDups.flatMap fun f =>
      flags.filter (·.feature = f)).Perm flags :=
    flatMap_filter_perm (nodup_eraseDups _) fun x hx => by
      simpa using feature_mem_namedFeatures hx
  have howned : ((flags.map Flag.key).flatMap fun k =>
      (ownedSettings flags settings).filter (·.owner = k)).Perm (ownedSettings flags settings) :=
    flatMap_filter_perm hn fun y hy => by simpa using (List.mem_filter.mp hy).2
  have hsettings : ((flags.map Flag.key).flatMap fun k =>
      (ownedSettings flags settings).filter (·.owner = k)) =
      flags.flatMap fun x => settings.filter (·.owner = x.key) := by
    rw [List.flatMap_map]
    refine List.flatMap_congr fun x hx => ?_
    rw [ownedSettings, List.filter_filter]
    refine List.filter_congr fun y _ => ?_
    by_cases h : y.owner = x.key
    · simpa [h] using ⟨x, hx, rfl⟩
    · simp [h]
  rw [hfeatures]
  refine (hflags.flatMap_right _).trans ?_
  rw [← List.map_flatMap, ← hsettings]
  exact howned.map _

namespace Properties

theorem options_compile (p : Properties) :
    p.compile.options.Perm ((ownedSettings p.flags p.settings).map Setting.fragment) := by
  rw [compile_eq_described]
  exact options_described p.nodup_flag_keys

theorem ownedSettings_eq_filter_locations (p : Properties) :
    ownedSettings p.flags p.settings =
      p.settings.filter (·.key ∉ Lint.locations "orphan_option" p) := by
  refine List.filter_congr fun y hy => ?_
  simp only [Lint.key_mem_locations_orphanOption hy, not_not]

/-- The options of a configuration are the fragments of the settings that are not located as
orphans, each as often as it is given. So with the orphans there are as many options as there are
keys with a point. -/
theorem options_compile_perm (p : Properties) :
    p.compile.options.Perm
      ((p.settings.filter (·.key ∉ Lint.locations "orphan_option" p)).map Setting.fragment) ∧
    p.compile.options.length + ((Lint.issues p).filter (·.kind = "orphan_option")).length =
      (p.entries.filter ('.' ∈ ·.1.toList)).length := by
  have horphans : ((Lint.issues p).filter (·.kind = "orphan_option")).length =
      (p.settings.filter (·.owner ∉ p.flags.map Flag.key)).length := by
    simpa [Lint.locations] using congrArg List.length (Lint.locations_orphanOption p)
  refine ⟨p.ownedSettings_eq_filter_locations ▸ p.options_compile, ?_⟩
  rw [p.options_compile.length_eq, List.length_map, horphans, ← length_settings,
    List.length_eq_length_filter_add (l := p.settings) (·.owner ∈ p.flags.map Flag.key)]
  simp only [ownedSettings, decide_not]

end Properties

end ClassAnnotator
