import ClassAnnotator.Proofs.AnyCatalog
import ClassAnnotator.Proofs.Described

/-! # Consistent selections

A selection starts with the default feature and has every feature once, under the key that names
it in the catalog. Whatever is selected keeps this. The selection is consistent when all that its
features require is selected too. This fails between selecting a feature and selecting its
dependencies, for that feature alone, and holds again after every entry.
-/

namespace ClassAnnotator

namespace Selection

variable {s : Selection} {f : Feature} {g : SelectedFeature} {key : String}

structure Listed (s : Selection) : Prop where
  default_first : s.chosen.head? = some Feature.default
  keyed : s.Keyed
  lookup_key : ∀ f ∈ s.chosen, Feature.lookup f.key = some f
  nodup_keys : s.keys.Nodup

structure Consistent (s : Selection) : Prop extends s.Listed where
  closed : ∀ f ∈ s.chosen, ∀ d ∈ Catalog.dependencies Feature.catalog f, d ∈ s.chosen

namespace Listed

theorem mem_catalog (h : s.Listed) (hf : f ∈ s.chosen) : f ∈ Feature.catalog :=
  Catalog.mem_of_lookup (h.lookup_key f hf)

theorem over_catalog (h : s.Listed) : s.Over Feature.catalog :=
  ⟨h.keyed, fun _ => h.mem_catalog, h.nodup_keys⟩

theorem of_over (h : s.Over Feature.catalog) (hd : s.chosen.head? = some Feature.default) :
    s.Listed :=
  ⟨hd, h.keyed, fun g hg => (Feature.lookup_key g (h.subset hg)).1, h.nodup_keys⟩

theorem stored (h : s.Listed) (he : (key, g) ∈ s.entries) :
    key = g.feature.key ∧ Feature.lookup key = some g.feature := by
  obtain rfl : key = g.feature.key := h.keyed _ he
  exact ⟨rfl, h.lookup_key _ (mem_chosen.mpr ⟨g, List.mem_map_of_mem he, rfl⟩)⟩

theorem addOptions (h : s.Listed) (key : String) (fragments : List String) :
    (s.addOptions key fragments).Listed := by
  have hc := chosen_addOptions s key fragments
  exact ⟨hc ▸ h.default_first, h.keyed.addOptions key fragments, hc ▸ h.lookup_key,
    (keys_addOptions s key fragments).symm ▸ h.nodup_keys⟩

theorem select (h : s.Listed) (hf : f ∈ Feature.catalog) : (s.select f).Listed := by
  refine of_over (h.over_catalog.select hf) ?_
  rw [chosen_select]
  split
  · exact h.default_first
  · rw [List.head?_append, h.default_first, Option.some_or]

theorem get?_eq_some_iff (h : s.Listed) : s.get? key = some g ↔
    g ∈ s.features ∧ Text.sameIgnoringCase g.feature.key key = true := by
  rw [get?, Option.bind_eq_some_iff]
  constructor
  · rintro ⟨f, hf, hk⟩
    have hm := (Association.get?_eq_some_iff h.nodup_keys).mp hk
    have hkey : f.key = g.feature.key := h.keyed _ hm
    exact ⟨List.mem_map_of_mem hm, hkey ▸ Catalog.sameIgnoringCase_of_lookup hf⟩
  · rintro ⟨hg, hk⟩
    have hlookup := h.lookup_key _ (mem_chosen.mpr ⟨g, hg, rfl⟩)
    rw [Feature.lookup, Catalog.lookup_congr (Text.sameIgnoringCase_iff.mp hk)] at hlookup
    exact ⟨_, hlookup,
      (Association.get?_eq_some_iff h.nodup_keys).mpr (h.keyed.mem_features_iff.mp hg)⟩

theorem get?_eq_none_iff (h : s.Listed) : s.get? key = none ↔
    ∀ g ∈ s.features, Text.sameIgnoringCase g.feature.key key = false := by
  simp only [Option.eq_none_iff_forall_ne_some, ne_eq, h.get?_eq_some_iff, not_and,
    Bool.not_eq_true]

theorem contains_iff (h : s.Listed) : s.contains key = true ↔
    ∃ g ∈ s.features, Text.sameIgnoringCase g.feature.key key = true := by
  simp only [contains, Option.isSome_iff_exists, h.get?_eq_some_iff]

/-- Selecting what `f` requires makes a selection consistent in which only `f` lacks its
dependencies. -/
theorem consistent_selectDependencies (h : s.Listed) (hclosed : ∀ g ∈ s.chosen, g ≠ f →
      ∀ d ∈ Catalog.dependencies Feature.catalog g, d ∈ s.chosen) :
    (s.selectDependencies Feature.catalog f).Consistent := by
  have hrun := resolves_selectDependencies Feature.catalog f s
  have hover := hrun.over_catalog (fun _ => Catalog.mem_of_mem_dependencies) h.over_catalog
  refine ⟨of_over hover ?_, hrun.closed Feature.distinct_catalog h.over_catalog hclosed⟩
  obtain ⟨added, ht⟩ := hrun.exists_extend
  rw [ht, chosen_extend, List.head?_append, h.default_first, Option.some_or]

end Listed

namespace Consistent

variable {p : Properties} {x : Flag}

theorem initial : Selection.initial.Consistent :=
  ⟨⟨rfl, by simp [Keyed, Selection.initial], by decide, by decide⟩, by decide⟩

theorem turnOn (h : s.Consistent) (hx : x.feature ∈ Feature.catalog) :
    (p.turnOn s x).Consistent := by
  have hlisted := (h.toListed.select hx).addOptions x.feature.key (p.fragments x.key)
  refine hlisted.consistent_selectDependencies fun g hg hgx d hd => ?_
  rw [chosen_addOptions, mem_chosen_select] at hg ⊢
  obtain hg | ⟨-, hg⟩ := hg
  · exact .inl (h.closed g hg d hd)
  · exact absurd hg hgx

theorem compileEntry (h : s.Consistent) (p : Properties) (e : String × String) :
    (p.compileEntry s e).Consistent := by
  rw [Properties.compileEntry_eq]
  cases hx : Properties.flag? e with
  | none => exact h
  | some x => exact h.turnOn (Catalog.mem_of_lookup (Properties.flag?_eq_some_iff.mp hx).2.2.1)

theorem foldl_compileEntry (h : s.Consistent) (p : Properties) (entries : List (String × String)) :
    (entries.foldl p.compileEntry s).Consistent := by
  induction entries generalizing s with
  | nil => exact h
  | cons e rest ih => exact ih (h.compileEntry p e)

end Consistent

end Selection

namespace Properties

theorem consistent_compile (p : Properties) : p.compile.Consistent :=
  Selection.Consistent.initial.foldl_compileEntry p p.entries

/-- The selection after the first `n` entries. -/
def compileUpTo (p : Properties) (n : ℕ) : Selection :=
  (p.entries.take n).foldl p.compileEntry .initial

/-- A selection is consistent from the start and after every entry, so the compiled one is: every
feature is stored under its own key. So the feature found under a key is the one whose key it is in
any case, and none if there is no such feature. Keys, imports and annotations are as many as the
features and in the same order. -/
theorem consistent_compileUpTo (p : Properties) :
    p.compileUpTo 0 = .initial ∧ p.compileUpTo p.size = p.compile ∧
    ∀ n, let s := p.compileUpTo n
      s.Consistent ∧
      (∀ key g, (key, g) ∈ s.entries → key = g.feature.key ∧ Feature.lookup key = some g.feature) ∧
      (∀ key g, s.get? key = some g ↔
        g ∈ s.features ∧ Text.sameIgnoringCase g.feature.key key = true) ∧
      (∀ key, s.get? key = none ↔
        ∀ g ∈ s.features, Text.sameIgnoringCase g.feature.key key = false) ∧
      (∀ key, s.contains key = true ↔
        ∃ g ∈ s.features, Text.sameIgnoringCase g.feature.key key = true) ∧
      (s.features.length = s.size ∧ s.keys.length = s.size ∧ s.imports.length = s.size ∧
        s.annotations.length = s.size) ∧
      ∀ (i : ℕ) (g : SelectedFeature), s.features[i]? = some g →
        s.entries[i]? = some (g.feature.key, g) ∧ s.keys[i]? = some g.feature.key ∧
          s.imports[i]? = some g.feature.importName ∧ s.annotations[i]? = some g.render := by
  refine ⟨rfl, ?_, fun n => ?_⟩
  · rw [compileUpTo, size, List.take_length, compile]
  · have hs : (p.compileUpTo n).Consistent := Selection.Consistent.initial.foldl_compileEntry p _
    refine ⟨hs, fun _ _ => hs.stored, fun _ _ => hs.get?_eq_some_iff, fun _ => hs.get?_eq_none_iff,
      fun _ => hs.contains_iff, ?_, fun _ _ => hs.keyed.getElem?_views⟩
    simp [Selection.features, Selection.keys, Selection.imports, Selection.annotations,
      Selection.size]

end Properties

end ClassAnnotator
