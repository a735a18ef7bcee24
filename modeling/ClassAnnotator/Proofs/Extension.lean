import ClassAnnotator.Proofs.Consistency
import ClassAnnotator.Proofs.Insertion
import Mathlib.Data.List.Flatten

/-! # Adding entries

Entries with new keys are added at the end of a configuration. They can turn on further features
and give further options, also to features that are there already and also between the options
that these have. They take nothing away and change no order.
-/

namespace ClassAnnotator

variable {flags flags' : List Flag} {settings settings' : List Setting} {f : Feature}

theorem prefix_eraseDups_namedFeatures (h : flags <+: flags') :
    (namedFeatures flags).eraseDups <+: (namedFeatures flags').eraseDups := by
  obtain ⟨more, rfl⟩ := h
  have hnamed : namedFeatures (flags ++ more) =
      namedFeatures flags ++ more.flatMap fun x => x.feature :: x.feature.requirements := by
    simp [namedFeatures]
  rw [hnamed, List.eraseDups_append]
  exact List.prefix_append ..

theorem collected_sublist (hf : flags.Sublist flags') (hs : settings.Sublist settings')
    (f : Feature) : (collected settings flags f).Sublist (collected settings' flags' f) := by
  have hsettings : (collected settings flags f).Sublist (collected settings' flags f) :=
    List.Sublist.flatMap_right _ fun x _ => (hs.filter _).map _
  exact hsettings.trans ((hf.filter _).flatMap _)

namespace Properties

variable {p q : Properties} {pairs : List (String × String)}

theorem entries_insertAll (hn : (pairs.map Prod.fst).Nodup)
    (hp : ∀ key ∈ pairs.map Prod.fst, key ∉ p.keys) :
    (p.insertAll pairs).entries = p.entries ++ pairs := by
  rw [insertAll_eq_ofList]
  apply entries_ofList_of_nodup
  rw [List.map_append]
  exact List.nodup_append.mpr ⟨p.nodup_keys, hn, fun a ha b hb he => hp b hb (he ▸ ha)⟩

theorem keys_prefix_of_flags (h : p.flags <+: q.flags) :
    p.compile.keys <+: q.compile.keys := by
  rw [p.keyed_compile.keys_eq_map_key, q.keyed_compile.keys_eq_map_key, compile_eq_described,
    compile_eq_described, features_described, features_described]
  exact (prefix_eraseDups_namedFeatures h).map Feature.key

theorem options_sublist_of_flags (hf : p.flags <+: q.flags)
    (hs : p.settings.Sublist q.settings) {f : SelectedFeature} (h : f ∈ p.compile.features) :
    ∃ g, q.compile.get? f.feature.key = some g ∧ g.feature = f.feature ∧
      f.options.Sublist g.options := by
  obtain ⟨f, hnamed, rfl⟩ := mem_features_compile.mp h
  have hnamed' : f ∈ namedFeatures q.flags := by
    rw [← List.mem_eraseDups] at hnamed ⊢
    exact (prefix_eraseDups_namedFeatures hf).subset hnamed
  refine ⟨⟨f, collected q.settings q.flags f⟩, ?_, rfl, collected_sublist hf.sublist hs f⟩
  exact q.consistent_compile.get?_eq_some_iff.mpr
    ⟨mem_features_compile.mpr ⟨f, hnamed', rfl⟩, Text.sameIgnoringCase_refl _⟩

/-- Entries with new keys are added behind the others. What the configuration compiled to before
stays: its features are the first ones of the new selection, in the same order, and the options of
each of them are options still, in the same order. -/
theorem compile_insertAll (hn : (pairs.map Prod.fst).Nodup)
    (hp : ∀ key ∈ pairs.map Prod.fst, key ∉ p.keys) :
    (p.insertAll pairs).entries = p.entries ++ pairs ∧
    p.compile.keys <+: (p.insertAll pairs).compile.keys ∧
    ∀ f ∈ p.compile.features, ∃ g, (p.insertAll pairs).compile.get? f.feature.key = some g ∧
      g.feature = f.feature ∧ f.options.Sublist g.options := by
  have hentries := entries_insertAll hn hp
  have hflags : p.flags <+: (p.insertAll pairs).flags := by
    rw [flags, flags, hentries, List.filterMap_append]
    exact List.prefix_append ..
  have hsettings : p.settings.Sublist (p.insertAll pairs).settings := by
    rw [settings, settings, hentries, List.filterMap_append]
    exact List.sublist_append_left ..
  exact ⟨hentries, keys_prefix_of_flags hflags,
    fun f => options_sublist_of_flags hflags hsettings⟩

theorem compile_insertAll_of_revived_orphans :
    let p := Properties.ofList
      [("builder", "true"), ("Builder.b", "2"), ("allArgsConstructor", "TRUE"), ("builder.a", "1"),
        ("frob", "true"), ("noArgsConstructor.force", "true")]
    let q := p.insertAll
      [("builder.c", "3"), ("Builder", "True"), ("noArgsConstructor", "true"), ("Data", "true")]
    let builder : Feature := ⟨"builder", "@Builder", "lombok.Builder", []⟩
    p.compile.keys <+: q.compile.keys ∧
      ∃ g, q.compile.get? "builder" = some g ∧ g.feature = builder ∧
        g.options = ["a=\"1\"", "c=\"3\"", "b=\"2\""] ∧ ["a=\"1\""].Sublist g.options := by
  intro p q builder
  obtain ⟨-, hkeys, hfeatures⟩ := @compile_insertAll p
    [("builder.c", "3"), ("Builder", "True"), ("noArgsConstructor", "true"), ("Data", "true")]
    (by decide) (by decide)
  have hf : ⟨builder, ["a=\"1\""]⟩ ∈ p.compile.features :=
    mem_features_compile.mpr ⟨builder, by decide, by decide⟩
  obtain ⟨g, hget, hg, hoptions⟩ := hfeatures _ hf
  obtain ⟨f, -, rfl⟩ :=
    mem_features_compile.mp (q.consistent_compile.get?_eq_some_iff.mp hget).1
  obtain rfl : f = builder := hg
  exact ⟨hkeys, _, hget, rfl, by decide, hoptions⟩

end Properties

end ClassAnnotator
