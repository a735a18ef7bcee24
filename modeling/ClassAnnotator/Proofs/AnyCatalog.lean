import ClassAnnotator.Proofs.Resolution
import ClassAnnotator.Proofs.StoredFeatures
import Mathlib.Logic.Relation

/-! # Resolution in any catalog

Dependencies may form cycles, and their keys may name nothing. The dependencies of a feature are
taken one after the other. One that is selected is passed over; any other is selected and has its
own dependencies taken before the next. Going deeper selects a further feature, so no resolution is
deeper than there are features to select. Whatever a resolution selects has its dependencies
selected when the resolution ends, so the features that were selected before decide whether the
result is closed.
-/

namespace ClassAnnotator

/-- `f` requires `g`, directly or through other features. -/
def Catalog.Requires (c : Catalog) : Feature → Feature → Prop :=
  Relation.TransGen fun f d => d ∈ c.dependencies f

namespace Selection

/-- Taking the pending features one after the other leads from a selection to another one, and
dependencies are taken at most `n` levels deep on the way. -/
inductive Resolves (c : Catalog) : ℕ → List Feature → Selection → Selection → Prop where
  | done {n : ℕ} {s : Selection} : Resolves c n [] s s
  | skip {n : ℕ} {d : Feature} {rest : List Feature} {s t : Selection} :
      d.key ∈ s.keys → Resolves c n rest s t → Resolves c n (d :: rest) s t
  | descend {n : ℕ} {d : Feature} {rest : List Feature} {s u t : Selection} :
      d.key ∉ s.keys → Resolves c n (c.dependencies d) (s.select d) u →
      Resolves c (n + 1) rest u t → Resolves c (n + 1) (d :: rest) s t

/-- Every selected feature is one of the catalog, stored under its key, and no key is selected
twice. -/
structure Over (c : Catalog) (s : Selection) : Prop where
  keyed : s.Keyed
  subset : s.chosen ⊆ c
  nodup_keys : s.keys.Nodup

def extend (s : Selection) (added : List Feature) : Selection :=
  ⟨s.entries ++ added.map fun f => (f.key, ⟨f, []⟩)⟩

variable {c : Catalog} {n : ℕ} {s t : Selection} {f g d : Feature} {pending added : List Feature}

@[simp] theorem extend_nil (s : Selection) : s.extend [] = s := by simp [extend]

@[simp] theorem extend_extend (s : Selection) (l m : List Feature) :
    (s.extend l).extend m = s.extend (l ++ m) := by simp [extend]

@[simp] theorem chosen_extend (s : Selection) (added : List Feature) :
    (s.extend added).chosen = s.chosen ++ added := by
  simp [extend, chosen, features, Function.comp_def]

@[simp] theorem keys_extend (s : Selection) (added : List Feature) :
    (s.extend added).keys = s.keys ++ added.map Feature.key := by
  simp [extend, keys, Function.comp_def]

theorem select_of_not_mem (h : f.key ∉ s.keys) : s.select f = s.extend [f] := by
  simp [select, extend, h]

theorem mem_chosen_select :
    g ∈ (s.select d).chosen ↔ g ∈ s.chosen ∨ d.key ∉ s.keys ∧ g = d := by
  rw [chosen_select]
  split <;> simp [*]

theorem length_unselected_le (h : s.keys ⊆ t.keys) :
    (t.unselected c).length ≤ (s.unselected c).length := by
  refine (List.monotone_filter_right c fun f hf => ?_).length_le
  simp only [decide_eq_true_eq] at hf ⊢
  exact fun hs => hf (h hs)

namespace Over

theorem select (h : s.Over c) (hf : f ∈ c) : (s.select f).Over c := by
  by_cases hk : f.key ∈ s.keys
  · rwa [select_of_mem hk]
  · rw [select_of_not_mem hk]
    refine ⟨select_of_not_mem hk ▸ h.keyed.select f, ?_, ?_⟩
    · rw [chosen_extend]
      exact List.append_subset.mpr ⟨h.subset, by simpa using hf⟩
    · rw [keys_extend]
      exact List.nodup_append.mpr ⟨h.nodup_keys, List.nodup_singleton _, by grind⟩

theorem of_extend (h : (s.extend added).Over c) : added.Nodup ∧ ∀ f ∈ added, f ∉ s.chosen := by
  have hn : (s.chosen ++ added).Nodup := by
    have hk := h.nodup_keys
    rw [h.keyed.keys_eq_map_key] at hk
    rw [← chosen_extend]
    exact hk.of_map
  obtain ⟨-, ha, hd⟩ := List.nodup_append.mp hn
  exact ⟨ha, fun f hf hs => hd f hs f hf rfl⟩

end Over

theorem visit_of_mem (h : d.key ∈ s.keys) : visit c s d = s := if_pos h

theorem visit_of_not_mem (h : d.key ∉ s.keys) :
    visit c s d = (c.dependencies d).foldl (visit c) (s.select d) := by
  rw [visit, if_neg h, selectDependencies_eq_foldl_visit]

namespace Resolves

theorem eq_foldl_visit (h : Resolves c n pending s t) : t = pending.foldl (visit c) s := by
  induction h with
  | done => rfl
  | skip hk _ ih => rwa [List.foldl_cons, visit_of_mem hk]
  | descend hk _ _ ihd ih => rwa [List.foldl_cons, visit_of_not_mem hk, ← ihd]

theorem exists_extend (h : Resolves c n pending s t) : ∃ added, t = s.extend added := by
  induction h with
  | done => exact ⟨[], (extend_nil _).symm⟩
  | skip _ _ ih => exact ih
  | @descend n d rest s u t hk _ _ ihd ih =>
    obtain ⟨below, rfl⟩ := ihd
    obtain ⟨behind, rfl⟩ := ih
    refine ⟨d :: below ++ behind, ?_⟩
    rw [select_of_not_mem hk, extend_extend, extend_extend]
    rfl

theorem keys_subset (h : Resolves c n pending s t) : s.keys ⊆ t.keys := by
  obtain ⟨added, rfl⟩ := h.exists_extend
  rw [keys_extend]
  exact List.subset_append_left ..

theorem chosen_subset (h : Resolves c n pending s t) : s.chosen ⊆ t.chosen := by
  obtain ⟨added, rfl⟩ := h.exists_extend
  rw [chosen_extend]
  exact List.subset_append_left ..

theorem over_catalog (h : Resolves c n pending s t) (hp : pending ⊆ c) (hs : s.Over c) :
    t.Over c := by
  induction h with
  | done => exact hs
  | skip _ _ ih => exact ih (List.cons_subset.mp hp).2 hs
  | descend _ _ _ ihd ih =>
    obtain ⟨hd, hp⟩ := List.cons_subset.mp hp
    exact ih hp (ihd (fun _ => Catalog.mem_of_mem_dependencies) (hs.select hd))

theorem key_mem (h : Resolves c n pending s t) (hd : d ∈ pending) : d.key ∈ t.keys := by
  induction h with
  | done => cases hd
  | skip hk hr ih =>
    rcases List.mem_cons.mp hd with rfl | hd
    · exact hr.keys_subset hk
    · exact ih hd
  | descend _ hb hr _ ih =>
    rcases List.mem_cons.mp hd with rfl | hd
    · exact hr.keys_subset (hb.keys_subset (mem_keys_select.mpr (.inr rfl)))
    · exact ih hd

/-- A feature is selected because it was before, or because a pending feature leads to it. -/
theorem reached (h : Resolves c n pending s t) (hg : g ∈ t.chosen) : g ∈ s.chosen ∨
    ∃ d ∈ pending, Relation.ReflTransGen (fun f d => d ∈ c.dependencies f) d g := by
  induction h with
  | done => exact .inl hg
  | skip _ _ ih =>
    obtain hs | ⟨e, he, hr⟩ := ih hg
    · exact .inl hs
    · exact .inr ⟨e, List.mem_cons_of_mem _ he, hr⟩
  | @descend n d rest s u t _ _ _ ihd ih =>
    obtain hu | ⟨e, he, hr⟩ := ih hg
    · obtain hs | ⟨e, he, hr⟩ := ihd hu
      · obtain hs | ⟨-, rfl⟩ := mem_chosen_select.mp hs
        · exact .inl hs
        · exact .inr ⟨g, List.mem_cons_self .., .refl⟩
      · exact .inr ⟨d, List.mem_cons_self .., .head he hr⟩
    · exact .inr ⟨e, List.mem_cons_of_mem _ he, hr⟩

/-- What was not selected before has its dependencies selected in the end. -/
theorem resolved (h : Resolves c n pending s t) (hg : g ∈ t.chosen) : g ∈ s.chosen ∨
    ∀ d ∈ c.dependencies g, d.key ∈ t.keys := by
  induction h with
  | done => exact .inl hg
  | skip _ _ ih => exact ih hg
  | descend _ hb hr ihd ih =>
    obtain hu | hdeps := ih hg
    · obtain hs | hdeps := ihd hu
      · obtain hs | ⟨-, rfl⟩ := mem_chosen_select.mp hs
        · exact .inl hs
        · exact .inr fun e he => hr.keys_subset (hb.key_mem he)
      · exact .inr fun e he => hr.keys_subset (hdeps e he)
    · exact .inr hdeps

theorem closed (h : Resolves c n (c.dependencies f) s t) (hc : c.Distinct) (hs : s.Over c)
    (hclosed : ∀ g ∈ s.chosen, g ≠ f → ∀ d ∈ c.dependencies g, d ∈ s.chosen) :
    ∀ g ∈ t.chosen, ∀ d ∈ c.dependencies g, d ∈ t.chosen := by
  intro g hg d hd
  have ht : t.Over c := h.over_catalog (fun _ => Catalog.mem_of_mem_dependencies) hs
  have hmem : d.key ∈ t.keys → d ∈ t.chosen :=
    (ht.keyed.key_mem_keys_iff hc ht.subset (Catalog.mem_of_mem_dependencies hd)).mp
  obtain hold | hdeps := h.resolved hg
  · by_cases hgf : g = f
    · exact hmem (h.key_mem (hgf ▸ hd))
    · exact h.chosen_subset (hclosed g hold hgf d hd)
  · exact hmem (hdeps d hd)

end Resolves

theorem mem_chosen_of_requires (h : ∀ g ∈ s.chosen, ∀ d ∈ c.dependencies g, d ∈ s.chosen)
    (hf : f ∈ s.chosen) (hg : c.Requires f g) : g ∈ s.chosen := by
  induction hg with
  | single hd => exact h f hf _ hd
  | tail _ hd ih => exact h _ ih _ hd

/-- Visiting features is a resolution that is no deeper than there are features to select. -/
theorem resolves_foldl_visit (hp : pending ⊆ c) (hn : (s.unselected c).length ≤ n) :
    Resolves c n pending s (pending.foldl (visit c) s) := by
  -- The depth decreases with each level, and at every level the pending features are taken in turn.
  induction n generalizing pending s with
  | zero =>
    have hall : ∀ d ∈ c, d.key ∈ s.keys := by
      simpa [unselected, List.filter_eq_nil_iff] using hn
    induction pending with
    | nil => exact .done
    | cons d rest ih =>
      obtain ⟨hd, hp⟩ := List.cons_subset.mp hp
      rw [List.foldl_cons, visit_of_mem (hall d hd)]
      exact .skip (hall d hd) (ih hp)
  | succ n deeper =>
    induction pending generalizing s with
    | nil => exact .done
    | cons d rest ih =>
      obtain ⟨hd, hp⟩ := List.cons_subset.mp hp
      rw [List.foldl_cons]
      by_cases hk : d.key ∈ s.keys
      · rw [visit_of_mem hk]
        exact .skip hk (ih hp hn)
      · rw [visit_of_not_mem hk]
        have hlt := unselected_select_lt hd hk
        have hb : Resolves c n (c.dependencies d) (s.select d)
            ((c.dependencies d).foldl (visit c) (s.select d)) :=
          deeper (fun _ => Catalog.mem_of_mem_dependencies) (by omega)
        have hle := length_unselected_le (c := c) hb.keys_subset
        exact .descend hk hb (ih hp (by omega))

theorem resolves_selectDependencies (c : Catalog) (f : Feature) (s : Selection) :
    Resolves c (s.unselected c).length (c.dependencies f) s (s.selectDependencies c f) := by
  rw [selectDependencies_eq_foldl_visit]
  exact resolves_foldl_visit (fun _ => Catalog.mem_of_mem_dependencies) (Nat.le_refl _)

/-- The resolution of what a selected feature requires ends, no deeper than there are features to
select, and has one result. If the other selected features have their dependencies selected, then
the result has the selection as its beginning, with all options. Behind it are the features that
are required and were not selected, each once and without options, and every selected feature has
its dependencies selected. -/
theorem selectDependencies_closes (hc : c.Distinct) (hs : s.Over c) (hf : f ∈ s.chosen)
    (hclosed : ∀ g ∈ s.chosen, g ≠ f → ∀ d ∈ c.dependencies g, d ∈ s.chosen) :
    let t := s.selectDependencies c f
    Resolves c (s.unselected c).length (c.dependencies f) s t ∧
    (∀ n u, Resolves c n (c.dependencies f) s u → u = t) ∧
    (∃ added : List Feature, t.entries = s.entries ++ added.map (fun g => (g.key, ⟨g, []⟩)) ∧
      added.Nodup ∧ ∀ g, g ∈ added ↔ c.Requires f g ∧ g ∉ s.chosen) ∧
    t.Over c ∧ ∀ g ∈ t.chosen, ∀ d ∈ c.dependencies g, d ∈ t.chosen := by
  intro t
  have hrun : Resolves c (s.unselected c).length (c.dependencies f) s t :=
    resolves_selectDependencies c f s
  have hover : t.Over c := hrun.over_catalog (fun _ => Catalog.mem_of_mem_dependencies) hs
  have hall : ∀ g ∈ t.chosen, ∀ d ∈ c.dependencies g, d ∈ t.chosen := hrun.closed hc hs hclosed
  refine ⟨hrun, fun n u hu => hu.eq_foldl_visit.trans hrun.eq_foldl_visit.symm, ?_, hover, hall⟩
  obtain ⟨added, hadded⟩ := hrun.exists_extend
  have hchosen : t.chosen = s.chosen ++ added := hadded ▸ chosen_extend s added
  obtain ⟨hnodup, hnew⟩ := Over.of_extend (hadded ▸ hover)
  refine ⟨added, congrArg entries hadded, hnodup, fun g => ?_⟩
  constructor
  · intro hg
    have hns := hnew g hg
    obtain ⟨d, hd, hr⟩ := (hrun.reached (hchosen ▸ List.mem_append_right _ hg)).resolve_left hns
    exact ⟨.head' hd hr, hns⟩
  · rintro ⟨hg, hns⟩
    have hg := mem_chosen_of_requires hall (hrun.chosen_subset hf) hg
    rw [hchosen, List.mem_append] at hg
    exact hg.resolve_left hns

theorem selectDependencies_closes_of_cycles :
    let a : Feature := ⟨"a", "@A", "x.A", ["B", "c", "none", "d"]⟩
    let b : Feature := ⟨"b", "@B", "x.B", ["d"]⟩
    let c : Feature := ⟨"c", "@C", "x.C", ["C", "D"]⟩
    let d : Feature := ⟨"d", "@D", "x.D", ["A", "b"]⟩
    let s : Selection := ⟨[("a", ⟨a, ["x=true", "y=2"]⟩)]⟩
    let t := s.selectDependencies [a, b, c, d] a
    t.entries = [("a", ⟨a, ["x=true", "y=2"]⟩), ("b", ⟨b, []⟩), ("d", ⟨d, []⟩), ("c", ⟨c, []⟩)] ∧
      Catalog.Requires [a, b, c, d] a d ∧
      ∀ g ∈ t.chosen, ∀ x ∈ Catalog.dependencies [a, b, c, d] g, x ∈ t.chosen := by
  intro a b c d s t
  obtain ⟨-, -, ⟨added, hentries, -, hadded⟩, -, hclosed⟩ :=
    @selectDependencies_closes [a, b, c, d] s a (by decide)
      ⟨by simp [Keyed, s, a], by decide, by decide⟩ (by decide) (by decide)
  have ht : t.entries = s.entries ++ [b, d, c].map fun g => (g.key, ⟨g, []⟩) := by
    subst t s a b c d
    cbv
  have hmap : added.map (fun g => (g.key, SelectedFeature.mk g [])) =
      [b, d, c].map fun g => (g.key, ⟨g, []⟩) :=
    List.append_cancel_left (hentries.symm.trans ht)
  have hinj : Function.Injective fun g : Feature => (g.key, SelectedFeature.mk g []) :=
    fun _ _ h => congrArg (SelectedFeature.feature ∘ Prod.snd) h
  have hadd : added = [b, d, c] := List.map_injective_iff.mpr hinj hmap
  have hd : d ∈ added := by simp [hadd]
  exact ⟨ht, ((hadded d).mp hd).1, hclosed⟩

end Selection

end ClassAnnotator
