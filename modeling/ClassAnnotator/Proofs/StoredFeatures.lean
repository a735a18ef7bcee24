import ClassAnnotator.Proofs.Dependency
import ClassAnnotator.Selection

/-! # Features under their keys

A selection stores every feature under its own key. Selecting a feature and adding options keep
this. So the stored keys tell nothing that the features do not tell, and a feature of a catalog with
distinct keys is selected when its key is.
-/

namespace ClassAnnotator.Selection

variable {s t : Selection} {f : Feature} {g : SelectedFeature} {key : String}

/-- Everything that is selected is stored under its own key. -/
def Keyed (s : Selection) : Prop :=
  ∀ e ∈ s.entries, e.1 = e.2.feature.key

/-- The selected features without their options. -/
def chosen (s : Selection) : List Feature := s.features.map SelectedFeature.feature

theorem beq_iff_features_eq : (s == t) = true ↔ s.features = t.features := by
  change (s.features == t.features) = true ↔ _
  exact beq_iff_eq

theorem chosen_select (s : Selection) (f : Feature) :
    (s.select f).chosen = if f.key ∈ s.keys then s.chosen else s.chosen ++ [f] := by
  unfold select
  split <;> simp [chosen, features]

theorem chosen_addOptions (s : Selection) (key : String) (fragments : List String) :
    (s.addOptions key fragments).chosen = s.chosen := by
  simp only [chosen, features, addOptions, List.map_map]
  refine List.map_congr_left fun e _ => ?_
  simp only [Function.comp_apply]
  split <;> rfl

@[simp] theorem keys_addOptions (s : Selection) (key : String) (fragments : List String) :
    (s.addOptions key fragments).keys = s.keys := by
  simp [keys, addOptions]

theorem mem_chosen : f ∈ s.chosen ↔ ∃ g ∈ s.features, g.feature = f := List.mem_map

namespace Keyed

theorem entries_eq (h : s.Keyed) :
    s.entries = s.features.map fun g => (g.feature.key, g) := by
  rw [features, List.map_map]
  refine (List.map_id _).symm.trans (List.map_congr_left fun e he => ?_)
  rw [id_eq, Function.comp_apply, ← h e he]

theorem keys_eq_map_key (h : s.Keyed) :
    s.keys = (s.features.map SelectedFeature.feature).map Feature.key := by
  rw [keys, h.entries_eq]
  simp

/-- The keys add nothing to what a selection lists. -/
theorem eq_iff_features_eq (hs : s.Keyed) (ht : t.Keyed) :
    s = t ↔ s.features = t.features := by
  constructor
  · exact congrArg features
  · intro h
    have he : s.entries = t.entries := by rw [hs.entries_eq, ht.entries_eq, h]
    exact congrArg Selection.mk he

theorem mem_features_iff (h : s.Keyed) : g ∈ s.features ↔ (g.feature.key, g) ∈ s.entries := by
  constructor
  · intro hg
    obtain ⟨e, he, rfl⟩ := List.mem_map.mp hg
    exact h e he ▸ he
  · exact List.mem_map_of_mem

theorem select (h : s.Keyed) (f : Feature) : (s.select f).Keyed := by
  unfold Selection.select
  split
  · exact h
  · exact List.forall_mem_append.mpr ⟨h, by simp⟩

theorem addOptions (h : s.Keyed) (key : String) (fragments : List String) :
    (s.addOptions key fragments).Keyed := by
  refine List.forall_mem_map.mpr fun e he => ?_
  rw [h e he]
  dsimp only
  split <;> rfl

theorem mem_keys_of_mem_chosen (h : s.Keyed) (hf : f ∈ s.chosen) : f.key ∈ s.keys := by
  rw [h.keys_eq_map_key]
  exact List.mem_map_of_mem hf

theorem key_mem_keys_iff {c : Catalog} (h : s.Keyed) (hc : c.Distinct) (hs : s.chosen ⊆ c)
    (hf : f ∈ c) : f.key ∈ s.keys ↔ f ∈ s.chosen := by
  constructor
  · rw [h.keys_eq_map_key, List.mem_map]
    rintro ⟨g, hg, hk⟩
    exact hc.eq_of_key_eq (hs hg) hf hk ▸ hg
  · exact h.mem_keys_of_mem_chosen

theorem getElem?_views (h : s.Keyed) {i : ℕ} (hg : s.features[i]? = some g) :
    s.entries[i]? = some (g.feature.key, g) ∧ s.keys[i]? = some g.feature.key ∧
      s.imports[i]? = some g.feature.importName ∧ s.annotations[i]? = some g.render := by
  have he : s.entries[i]? = some (g.feature.key, g) := by simp [h.entries_eq, hg]
  exact ⟨he, by simp [keys, he], by simp [imports, hg], by simp [annotations, hg]⟩

end Keyed

end ClassAnnotator.Selection
