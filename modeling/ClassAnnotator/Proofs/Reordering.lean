import ClassAnnotator.Proofs.Described
import ClassAnnotator.Proofs.Findings
import Mathlib.Data.List.Perm.Subperm

/-! # Reordering entries

Configurations are the same when one is a permutation of the other. Reordering entries moves
features, options and issues, but neither adds nor removes any of them.
-/

namespace ClassAnnotator

variable {flags flags' : List Flag} {settings settings' : List Setting}

theorem eraseDups_namedFeatures_perm (h : flags.Perm flags') :
    (namedFeatures flags).eraseDups.Perm (namedFeatures flags').eraseDups := by
  refine (List.perm_ext_iff_of_nodup (nodup_eraseDups _) (nodup_eraseDups _)).mpr fun f => ?_
  have hnamed : (namedFeatures flags).Perm (namedFeatures flags') := (h.flatMap_right _).cons _
  rw [List.mem_eraseDups, List.mem_eraseDups, hnamed.mem_iff]

theorem collected_perm (hs : settings.Perm settings') (hf : flags.Perm flags') (f : Feature) :
    (collected settings flags f).Perm (collected settings' flags' f) :=
  (hf.filter _).flatMap fun _ _ => (hs.filter _).map _

namespace Properties

variable {p q : Properties}

theorem nodup_entries (p : Properties) : p.entries.Nodup := p.nodup_keys.of_map _

theorem sameEntries_iff : p.sameEntries q = true ↔ p.entries.Perm q.entries := by
  simp only [sameEntries, size, Bool.and_eq_true, beq_iff_eq, List.all_eq_true,
    get?_eq_some_iff]
  constructor
  · rintro ⟨hlen, hall⟩
    exact (List.subperm_of_subset p.nodup_entries hall).perm_of_length_le (Nat.le_of_eq hlen.symm)
  · exact fun h => ⟨h.length_eq, fun e he => h.mem_iff.mp he⟩

theorem get?_eq_of_perm (h : p.entries.Perm q.entries) (key : String) :
    p.get? key = q.get? key := by
  refine Option.ext fun value => ?_
  rw [get?_eq_some_iff, get?_eq_some_iff, h.mem_iff]

theorem features_compile_perm (h : p.entries.Perm q.entries) :
    (p.compile.features.map SelectedFeature.feature).Perm
      (q.compile.features.map SelectedFeature.feature) := by
  rw [compile_eq_described, compile_eq_described, features_described, features_described]
  exact eraseDups_namedFeatures_perm (h.filterMap _)

theorem options_perm_of_feature_eq (h : p.entries.Perm q.entries) {f g : SelectedFeature}
    (hf : f ∈ p.compile.features) (hg : g ∈ q.compile.features) (he : f.feature = g.feature) :
    f.options.Perm g.options := by
  obtain ⟨_, -, rfl⟩ := mem_features_compile.mp hf
  obtain ⟨_, -, rfl⟩ := mem_features_compile.mp hg
  obtain rfl := he
  exact collected_perm (h.filterMap _) (h.filterMap _) _

end Properties

namespace Lint

variable {p q : Properties}

theorem entryFindings_congr (h : ∀ key, p.get? key = q.get? key) (e : String × String) :
    entryFindings p e = entryFindings q e := by
  have howner : ownerEnabled p = ownerEnabled q := by
    funext owner
    rw [ownerEnabled, ownerEnabled, h]
  unfold entryFindings optionFindings
  rw [howner]

theorem issues_perm (h : p.entries.Perm q.entries) : (issues p).Perm (issues q) := by
  have hentry : entryFindings p = entryFindings q :=
    funext (entryFindings_congr (Properties.get?_eq_of_perm h))
  rw [issues, issues, findings, findings, hentry]
  exact (h.flatMap_right _).map _

end Lint

namespace Properties

variable {p q : Properties}

/-- Configurations that are the same up to the order of their entries compile to the same features
with the same options, and have the same issues, all up to order. So errors do not depend on the
order either. -/
theorem compile_and_issues_of_sameEntries (h : p.sameEntries q = true) :
    (p.compile.features.map SelectedFeature.feature).Perm
      (q.compile.features.map SelectedFeature.feature) ∧
    (∀ f ∈ p.compile.features, ∀ g ∈ q.compile.features, f.feature = g.feature →
      f.options.Perm g.options) ∧
    (Lint.issues p).Perm (Lint.issues q) ∧
    Lint.hasErrors (Lint.issues p) = Lint.hasErrors (Lint.issues q) := by
  have hperm := sameEntries_iff.mp h
  have hissues := Lint.issues_perm hperm
  refine ⟨features_compile_perm hperm, fun f hf g hg he => ?_, hissues, hissues.any_eq⟩
  exact options_perm_of_feature_eq hperm hf hg he

theorem compile_and_issues_of_moved_flags :
    let p := Properties.ofList
      [("allArgsConstructor", "true"), ("Builder", "TRUE"), ("builder.a", "1"),
        ("noArgsConstructor", "true"), ("builder", "true"), ("Builder.b", "\x7b"), ("frob.c", "2")]
    let q := Properties.ofList
      [("frob.c", "2"), ("builder", "true"), ("Builder.b", "\x7b"), ("noArgsConstructor", "true"),
        ("Builder", "TRUE"), ("allArgsConstructor", "true"), ("builder.a", "1")]
    p.sameEntries q = true ∧ p.compile.keys ≠ q.compile.keys ∧
      (p.compile.features.map SelectedFeature.feature).Perm
        (q.compile.features.map SelectedFeature.feature) ∧
      (Lint.issues p).Perm (Lint.issues q) ∧ Lint.hasErrors (Lint.issues q) = true := by
  intro p q
  have h : p.sameEntries q = true := by decide
  obtain ⟨hfeatures, -, hissues, herrors⟩ := compile_and_issues_of_sameEntries h
  refine ⟨h, ?_, hfeatures, hissues, herrors.symm.trans (by decide)⟩
  rw [compile_eq_described, compile_eq_described]
  decide

end Properties

end ClassAnnotator
