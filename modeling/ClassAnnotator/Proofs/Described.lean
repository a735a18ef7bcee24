import ClassAnnotator.Proofs.Entry
import ClassAnnotator.Proofs.FirstOccurrence
import ClassAnnotator.Proofs.Resolution
import ClassAnnotator.Proofs.StoredFeatures

/-! # The selection that flags and settings describe

Compiling a configuration lists the default feature and, for each flag, its feature and what this
requires, every feature at its first occurrence. The options of a feature are those that its
flags collect, in the order of the flags.
-/

namespace ClassAnnotator

namespace Feature

/-- What a built-in feature requires, depth first. -/
def requirements (f : Feature) : List Feature := catalog.walk catalog.length f

theorem distinct_catalog : Catalog.Distinct catalog := by decide

theorem settled_catalog : Catalog.Settled catalog catalog.length := by decide

theorem lookup_key : ∀ f ∈ catalog, lookup f.key = some f ∧ '.' ∉ f.key.toList := by decide

theorem default_mem_catalog : default ∈ catalog := List.mem_cons_self ..

end Feature

namespace Selection

variable {c : Catalog} {l m : List Feature} {o : Feature → List String} {f g : Feature}
  {fragments : List String}

/-- The features of `l`, each at its first occurrence, with the options that `o` gives them. -/
def listing (l : List Feature) (o : Feature → List String) : Selection :=
  ⟨l.eraseDups.map fun f => (f.key, ⟨f, o f⟩)⟩

theorem keyed_listing : (listing l o).Keyed := by
  simp [Keyed, listing]

theorem features_listing : (listing l o).features = l.eraseDups.map fun f => ⟨f, o f⟩ := by
  simp [features, listing]

theorem keys_listing : (listing l o).keys = l.eraseDups.map Feature.key := by
  simp [keys, listing]

theorem mem_keys_listing (hc : c.Distinct) (hl : l ⊆ c) (hf : f ∈ c) :
    f.key ∈ (listing l o).keys ↔ f ∈ l := by
  simp only [keys_listing, List.mem_map, List.mem_eraseDups]
  constructor
  · rintro ⟨g, hg, he⟩
    exact hc.eq_of_key_eq (hl hg) hf he ▸ hg
  · exact fun h => ⟨f, h, rfl⟩

theorem select_listing (hc : c.Distinct) (hl : l ⊆ c) (hf : f ∈ c) (ho : f ∉ l → o f = []) :
    (listing l o).select f = listing (l ++ [f]) o := by
  by_cases h : f ∈ l
  · rw [select_of_mem ((mem_keys_listing hc hl hf).mpr h), listing, listing, eraseDups_concat,
      if_pos h]
  · rw [select, if_neg (mt (mem_keys_listing hc hl hf).mp h), listing, listing,
      eraseDups_concat, if_neg h]
    simp [ho h]

theorem foldl_select_listing (hc : c.Distinct) (hl : l ⊆ c) (hm : m ⊆ c)
    (ho : ∀ g, g ∉ l → o g = []) : m.foldl select (listing l o) = listing (l ++ m) o := by
  induction m generalizing l with
  | nil => simp
  | cons f m ih =>
    obtain ⟨hf, hm⟩ := List.cons_subset.mp hm
    rw [List.foldl_cons, select_listing hc hl hf (ho f),
      ih (List.append_subset.mpr ⟨hl, by simpa using hf⟩) hm fun g hg => ho g (by simp_all)]
    simp

theorem addOptions_listing (hc : c.Distinct) (hl : l ⊆ c) (hf : f ∈ c) :
    (listing l o).addOptions f.key fragments =
      listing l fun g => o g ++ if g = f then fragments else [] := by
  simp only [addOptions, listing, List.map_map, mk.injEq]
  refine List.map_congr_left fun g hg => ?_
  have hg : g ∈ c := hl (List.mem_eraseDups.mp hg)
  by_cases h : g = f
  · simp [h]
  · simp [h, mt (hc.eq_of_key_eq hg hf) h]

end Selection

/-- The default feature and the feature of each flag, with what it requires behind it. -/
def namedFeatures (flags : List Flag) : List Feature :=
  Feature.default :: flags.flatMap fun x => x.feature :: x.feature.requirements

/-- The fragments that the flags of `f` collect. -/
def collected (settings : List Setting) (flags : List Flag) (f : Feature) : List String :=
  (flags.filter (·.feature = f)).flatMap fun x =>
    (settings.filter (·.owner = x.key)).map Setting.fragment

def described (flags : List Flag) (settings : List Setting) : Selection :=
  .listing (namedFeatures flags) (collected settings flags)

variable {flags : List Flag} {settings : List Setting} {f g d : Feature} {x : Flag}

theorem namedFeatures_concat : namedFeatures (flags ++ [x]) =
    namedFeatures flags ++ [x.feature] ++ x.feature.requirements := by
  simp [namedFeatures]

theorem collected_concat : collected settings (flags ++ [x]) f =
    collected settings flags f ++
      if f = x.feature then (settings.filter (·.owner = x.key)).map Setting.fragment else [] := by
  by_cases h : f = x.feature
  · simp [collected, h]
  · simp [collected, h, Ne.symm h]

theorem collected_eq_nil (h : ∀ x ∈ flags, x.feature ≠ f) : collected settings flags f = [] := by
  have : flags.filter (·.feature = f) = [] := by simpa [List.filter_eq_nil_iff] using h
  simp [collected, this]

theorem feature_mem_namedFeatures (h : x ∈ flags) : x.feature ∈ namedFeatures flags := by
  refine List.mem_cons_of_mem _ (List.mem_flatMap.mpr ⟨x, h, ?_⟩)
  exact List.mem_cons_self ..

theorem collected_eq_nil_of_not_named (h : f ∉ namedFeatures flags) :
    collected settings flags f = [] :=
  collected_eq_nil fun _ hx he => h (he ▸ feature_mem_namedFeatures hx)

/-- What a flag collects stands together among the options of its feature. -/
theorem infix_collected (h : x ∈ flags) :
    (settings.filter (·.owner = x.key)).map Setting.fragment <:+:
      collected settings flags x.feature := by
  have hown : x ∈ flags.filter (·.feature = x.feature) :=
    List.mem_filter.mpr ⟨h, decide_eq_true rfl⟩
  obtain ⟨l, r, hlr⟩ := List.append_of_mem hown
  rw [collected, hlr, List.flatMap_append, List.flatMap_cons]
  exact ⟨_, _, List.append_assoc ..⟩

theorem features_described :
    (described flags settings).features.map SelectedFeature.feature =
      (namedFeatures flags).eraseDups := by
  simp [described, Selection.features_listing, Function.comp_def]

section

variable (hflags : ∀ x ∈ flags, x.feature ∈ Feature.catalog)
include hflags

theorem namedFeatures_subset : namedFeatures flags ⊆ Feature.catalog := by
  intro g hg
  rcases List.mem_cons.mp hg with rfl | hg
  · exact Feature.default_mem_catalog
  · obtain ⟨x, hx, hg⟩ := List.mem_flatMap.mp hg
    rcases List.mem_cons.mp hg with rfl | hg
    · exact hflags x hx
    · exact Feature.settled_catalog.mem_of_mem_walk (hflags x hx) hg

theorem dependencies_subset_namedFeatures (hg : g ∈ namedFeatures flags)
    (hd : d ∈ Catalog.dependencies Feature.catalog g) : d ∈ namedFeatures flags := by
  rcases List.mem_cons.mp hg with rfl | hg
  · cases hd
  · obtain ⟨x, hx, hg⟩ := List.mem_flatMap.mp hg
    have hx' := hflags x hx
    refine List.mem_cons_of_mem _ (List.mem_flatMap.mpr ⟨x, hx, List.mem_cons_of_mem _ ?_⟩)
    rcases List.mem_cons.mp hg with rfl | hg
    · exact (Feature.settled_catalog.mem_walk_iff hx').mpr ⟨d, hd, .inl rfl⟩
    · exact Feature.settled_catalog.dependencies_subset_walk hx' hg hd

end

namespace Properties

variable {p : Properties}

def turnOn (p : Properties) (s : Selection) (x : Flag) : Selection :=
  ((s.select x.feature).addOptions x.feature.key (p.fragments x.key)).selectDependencies
    Feature.catalog x.feature

theorem compileEntry_eq (p : Properties) (s : Selection) (e : String × String) :
    p.compileEntry s e = (flag? e).elim s (p.turnOn s) := by
  rw [compileEntry]
  cases hx : flag? e with
  | some x =>
    have hk : e.1 = x.key := (flag?_eq_some_iff.mp hx).1
    have hr : EntryRole.of e.1 e.2 = .enabledFlag x.feature :=
      role_eq_enabledFlag_iff.mpr (hx.trans (by rw [hk]))
    simp only [hr, Option.elim_some]
    rw [turnOn, hk]
  | none =>
    split
    · next f hr => simp [role_eq_enabledFlag_iff.mp hr] at hx
    · rfl

theorem compile_eq_foldl_turnOn (p : Properties) :
    p.compile = p.flags.foldl p.turnOn .initial := by
  rw [compile, flags, List.foldl_filterMap]
  refine List.foldl_ext _ _ _ fun s e _ => ?_
  rw [compileEntry_eq]
  cases flag? e <;> rfl

theorem feature_mem_catalog (h : x ∈ p.flags) : x.feature ∈ Feature.catalog :=
  Catalog.mem_of_lookup (mem_flags.mp h).2.1

theorem turnOn_described (hflags : ∀ y ∈ flags, y.feature ∈ Feature.catalog) (hx : x ∈ p.flags) :
    p.turnOn (described flags p.settings) x = described (flags ++ [x]) p.settings := by
  have hf := feature_mem_catalog hx
  have hl := namedFeatures_subset hflags
  have hl' : namedFeatures flags ++ [x.feature] ⊆ Feature.catalog :=
    List.append_subset.mpr ⟨hl, by simpa using hf⟩
  have hc := Feature.distinct_catalog
  -- What is listed before the dependencies is closed, except for the feature just selected.
  have hclosed : ∀ o, Selection.ClosedExcept Feature.catalog [x.feature]
      (.listing (namedFeatures flags ++ [x.feature]) o) := by
    intro o g hg hs hgx d hd
    have hd' := Catalog.mem_of_mem_dependencies hd
    rw [Selection.mem_keys_listing hc hl' hg, List.mem_append] at hs
    rw [Selection.mem_keys_listing hc hl' hd', List.mem_append]
    exact .inl (dependencies_subset_namedFeatures hflags (hs.resolve_right hgx) hd)
  rw [turnOn, described, Selection.select_listing hc hl hf collected_eq_nil_of_not_named,
    Selection.addOptions_listing hc hl' hf, fragments_eq (mem_flags.mp hx).1,
    Selection.selectDependencies_eq_foldl_select hc Feature.settled_catalog hf (hclosed _),
    Selection.foldl_select_listing hc hl' fun g hg =>
      Feature.settled_catalog.mem_of_mem_walk hf hg]
  · simp only [described, namedFeatures_concat, Feature.requirements]
    exact congrArg _ (funext fun g => collected_concat.symm)
  · intro g hg
    obtain ⟨hg, hgx⟩ := not_or.mp (List.mem_append.not.mp hg)
    simp [collected_eq_nil_of_not_named hg, mt List.mem_singleton.mpr hgx]

theorem foldl_turnOn_described {rest : List Flag}
    (hflags : ∀ y ∈ flags, y.feature ∈ Feature.catalog) (hrest : rest ⊆ p.flags) :
    rest.foldl p.turnOn (described flags p.settings) = described (flags ++ rest) p.settings := by
  induction rest generalizing flags with
  | nil => simp
  | cons x rest ih =>
    obtain ⟨hx, hrest⟩ := List.cons_subset.mp hrest
    have hflags' : ∀ y ∈ flags ++ [x], y.feature ∈ Feature.catalog := by
      simpa [or_imp, forall_and] using ⟨hflags, feature_mem_catalog hx⟩
    rw [List.foldl_cons, turnOn_described hflags hx, ih hflags' hrest]
    simp

theorem compile_eq_described (p : Properties) : p.compile = described p.flags p.settings := by
  rw [compile_eq_foldl_turnOn]
  change p.flags.foldl p.turnOn (described [] p.settings) = _
  exact foldl_turnOn_described (by simp) (List.Subset.refl _)

theorem keyed_compile (p : Properties) : p.compile.Keyed :=
  compile_eq_described p ▸ Selection.keyed_listing

theorem mem_features_compile {g : SelectedFeature} : g ∈ p.compile.features ↔
    ∃ f ∈ namedFeatures p.flags, ⟨f, collected p.settings p.flags f⟩ = g := by
  simp [compile_eq_described, described, Selection.features_listing]

theorem mem_catalog_of_mem_features {g : SelectedFeature} (hg : g ∈ p.compile.features) :
    g.feature ∈ Feature.catalog := by
  obtain ⟨f, hf, rfl⟩ := mem_features_compile.mp hg
  exact namedFeatures_subset (fun _ => feature_mem_catalog) hf

theorem exists_setting_of_mem_options {g : SelectedFeature} {o : String}
    (hg : g ∈ p.compile.features) (ho : o ∈ g.options) : ∃ y ∈ p.settings, y.fragment = o := by
  obtain ⟨f, -, rfl⟩ := mem_features_compile.mp hg
  obtain ⟨x, -, ho⟩ := List.mem_flatMap.mp ho
  obtain ⟨y, hy, rfl⟩ := List.mem_map.mp ho
  exact ⟨y, List.mem_of_mem_filter hy, rfl⟩

end Properties

end ClassAnnotator
