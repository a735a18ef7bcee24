import ClassAnnotator.Proofs.WordOptions

/-! # Names of options

The flags of a feature collect the settings that are given under their keys, as these are spelled.
Under one spelling no option is named twice. Under two spellings it can be, and then the annotation
names it twice.
-/

namespace ClassAnnotator

variable {p : Properties} {f : Feature} {g : SelectedFeature} {x x' : Flag} {y z : Setting}

namespace Properties

/-- No annotation names an option twice. -/
def NamesOnce (p : Properties) : Prop :=
  ∀ g ∈ p.compile.features, ((p.settingsOf g.feature).map Setting.name).Nodup

theorem options_eq_map_settingsOf (hg : g ∈ p.compile.features) :
    g.options = (p.settingsOf g.feature).map Setting.fragment := by
  obtain ⟨f, -, rfl⟩ := mem_features_compile.mp hg
  exact p.collected_eq_map_settingsOf f

theorem exists_flag_of_mem_settingsOf (hy : y ∈ p.settingsOf f) :
    ∃ x ∈ p.flags, x.feature = f ∧ x.key = y.owner :=
  ⟨_, (mem_settingsOf.mp hy).2, rfl, rfl⟩

theorem sameIgnoringCase_keys (hx : x ∈ p.flags) (hx' : x' ∈ p.flags)
    (h : x.feature = x'.feature) : Text.sameIgnoringCase x.key x'.key = true := by
  have hkey : ∀ {w : Flag}, w ∈ p.flags → Text.foldCase w.feature.key = Text.foldCase w.key :=
    fun hw => Text.sameIgnoringCase_iff.mp
      (Catalog.sameIgnoringCase_of_lookup (mem_flags.mp hw).2.1)
  rw [Text.sameIgnoringCase_iff, ← hkey hx, ← hkey hx', h]

theorem pairwise_settingsOf (p : Properties) (f : Feature) :
    (p.settingsOf f).Pairwise fun y z => y.name = z.name →
      y.owner ≠ z.owner ∧ Text.sameIgnoringCase y.owner z.owner = true := by
  have howner : ∀ {x : Flag} {y : Setting}, y ∈ p.settings.filter (·.owner = x.key) →
      y.owner = x.key := fun hy => of_decide_eq_true (List.mem_filter.mp hy).2
  refine List.pairwise_flatMap.mpr ⟨fun x _ => ?_, ?_⟩
  · -- Settings with one owner have different names, since their keys differ.
    have hkeys := (List.pairwise_map.mp p.nodup_setting_keys).filter (·.owner = x.key)
    refine hkeys.imp_of_mem fun {y z} hy hz hne hname => absurd ?_ hne
    rw [Setting.key, Setting.key, howner hy, howner hz, hname]
  · -- Settings of two flags have different owners, since the keys of flags differ.
    have hkeys := (List.pairwise_map.mp p.nodup_flag_keys).filter (·.feature = f)
    refine hkeys.imp_of_mem fun {x x'} hx hx' hne y hy z hz _ => ?_
    obtain ⟨hx, hf⟩ := List.mem_filter.mp hx
    obtain ⟨hx', hf'⟩ := List.mem_filter.mp hx'
    rw [howner hy, howner hz]
    refine ⟨hne, sameIgnoringCase_keys hx hx' ?_⟩
    rw [of_decide_eq_true hf, of_decide_eq_true hf']

theorem nodup_names_settingsOf_iff :
    ((p.settingsOf f).map Setting.name).Nodup ↔
      ∀ y ∈ p.settingsOf f, ∀ z ∈ p.settingsOf f, y.name = z.name → y.owner = z.owner := by
  constructor
  · intro h y hy z hz hname
    rw [List.inj_on_of_nodup_map h hy hz hname]
  · intro h
    refine List.pairwise_map.mpr ((p.pairwise_settingsOf f).imp_of_mem ?_)
    intro y z hy hz hne hname
    exact (hne hname).1 (h y hy z hz hname)

theorem not_namesOnce_of_two_spellings :
    let p := Properties.ofList
      [("builder", "true"), ("builder.toBuilder", "true"), ("Builder", "true"),
        ("Builder.toBuilder", "true")]
    p.compile.annotations = ["@Data", "@Builder(toBuilder=true, toBuilder=true)"] ∧
      ¬ p.NamesOnce := by
  intro p
  let f : Feature := ⟨"builder", "@Builder", "lombok.Builder", []⟩
  constructor
  · rw [Selection.annotations, compile_eq_described]
    decide
  · intro h
    have hf : f ∈ namedFeatures p.flags := by decide
    have hnames := h _ (mem_features_compile.mpr ⟨f, hf, rfl⟩)
    exact absurd hnames (by decide)

/-- Two options of a feature share a name only if their owners are two spellings of the key of the
feature, both of them flags. So an annotation names an option twice exactly when it is given under
two spellings, and never when the flags of its feature are all spelled alike. -/
theorem names_of_options (p : Properties) : ∀ g ∈ p.compile.features,
    g.options = (p.settingsOf g.feature).map Setting.fragment ∧
    (∀ y ∈ p.settingsOf g.feature, ∃ x ∈ p.flags, x.feature = g.feature ∧ x.key = y.owner) ∧
    ((p.settingsOf g.feature).Pairwise fun y z => y.name = z.name →
      y.owner ≠ z.owner ∧ Text.sameIgnoringCase y.owner z.owner = true) ∧
    (((p.settingsOf g.feature).map Setting.name).Nodup ↔
      ∀ y ∈ p.settingsOf g.feature, ∀ z ∈ p.settingsOf g.feature,
        y.name = z.name → y.owner = z.owner) ∧
    ((∀ x ∈ p.flags, ∀ x' ∈ p.flags, x.feature = g.feature → x'.feature = g.feature →
      x.key = x'.key) → ((p.settingsOf g.feature).map Setting.name).Nodup) := by
  intro g hg
  refine ⟨options_eq_map_settingsOf hg, fun y => exists_flag_of_mem_settingsOf,
    p.pairwise_settingsOf _, nodup_names_settingsOf_iff, fun h => ?_⟩
  refine nodup_names_settingsOf_iff.mpr fun y hy z hz _ => ?_
  obtain ⟨x, hx, hf, ho⟩ := exists_flag_of_mem_settingsOf hy
  obtain ⟨x', hx', hf', ho'⟩ := exists_flag_of_mem_settingsOf hz
  rw [← ho, ← ho', h x hx x' hx' hf hf']

theorem names_of_options_of_other_spelling :
    let p := Properties.ofList
      [("accessors.fluent", "false"), ("Accessors", "TRUE"), ("Accessors.fluent", "true"),
        ("builder", "true"), ("BUILDER", "true"), ("builder.a", "x"), ("BUILDER.a", "x"),
        ("Accessors.chain.of", "a,b")]
    let g : SelectedFeature :=
      ⟨⟨"accessors", "@Accessors", "lombok.experimental.Accessors", []⟩,
        ["fluent=true", "chain.of=\x7b\"a\", \"b\"\x7d"]⟩
    g ∈ p.compile.features ∧ ((p.settingsOf g.feature).map Setting.name).Nodup ∧
      ¬ p.NamesOnce := by
  intro p g
  let f : Feature := ⟨"builder", "@Builder", "lombok.Builder", []⟩
  have hg : g ∈ p.compile.features :=
    mem_features_compile.mpr ⟨g.feature, by decide, by decide⟩
  have hf : ⟨f, ["a=\"x\"", "a=\"x\""]⟩ ∈ p.compile.features :=
    mem_features_compile.mpr ⟨f, by decide, by decide⟩
  obtain ⟨-, -, -, -, hnodup⟩ := names_of_options p g hg
  obtain ⟨-, -, -, hiff, -⟩ := names_of_options p _ hf
  exact ⟨hg, hnodup (by decide), fun h => absurd (hiff.mp (h _ hf)) (by decide)⟩

end Properties

end ClassAnnotator
