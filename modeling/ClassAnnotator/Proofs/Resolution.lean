import ClassAnnotator.Proofs.Dependency
import ClassAnnotator.Selection

/-! # Depth-first selection

`require` works off a list of pending keys. Each of them is visited in turn, and a visit of a
feature selects the feature and visits its dependencies. If what is selected is closed under
dependencies, except for the features whose visit is under way, then a visit selects the walk of
the feature in order.
-/

namespace ClassAnnotator.Selection

variable {c : Catalog} {n : ℕ} {s : Selection} {f g d : Feature} {E : List Feature}

@[simp] theorem mem_keys_select :
    g.key ∈ (s.select f).keys ↔ g.key ∈ s.keys ∨ g.key = f.key := by
  rw [keys_select]
  split
  · next h => exact ⟨.inl, fun hg => hg.elim id fun e => e ▸ h⟩
  · simp

theorem mem_keys_foldl_select {l : List Feature} :
    g.key ∈ (l.foldl select s).keys ↔ g.key ∈ s.keys ∨ ∃ f ∈ l, g.key = f.key := by
  induction l generalizing s with
  | nil => simp
  | cons f l ih => simp [ih, or_assoc]

theorem select_of_mem (h : f.key ∈ s.keys) : s.select f = s := if_pos h

theorem foldl_select_of_subset {l : List Feature} (h : ∀ f ∈ l, f.key ∈ s.keys) :
    l.foldl select s = s := by
  induction l with
  | nil => rfl
  | cons f l ih =>
    rw [List.foldl_cons, select_of_mem (h f (List.mem_cons_self ..))]
    exact ih fun g hg => h g (List.mem_cons_of_mem _ hg)

/-- Select `d` and what it requires, unless `d` is selected. -/
def visit (c : Catalog) (s : Selection) (d : Feature) : Selection :=
  if d.key ∈ s.keys then s else (s.select d).selectDependencies c d

@[simp] theorem require_nil (c : Catalog) (s : Selection) : require c [] s = s := by
  rw [require]

theorem require_cons (c : Catalog) (key : String) (rest : List String) (s : Selection) :
    require c (key :: rest) s =
      match c.lookup key with
      | none => require c rest s
      | some f =>
        if f.key ∈ s.keys then require c rest s
        else require c (f.dependsOn ++ rest) (s.select f) := by
  rw [require]
  split <;> simp [*]

theorem require_append (c : Catalog) (xs ys : List String) (s : Selection) :
    require c (xs ++ ys) s = require c ys (require c xs s) := by
  induction xs, s using require.induct c with
  | case1 s => simp
  | case2 s key rest h ih => simp [require_cons, h, ih]
  | case3 s key rest f h hs ih => simp [require_cons, h, hs, ih]
  | case4 s key rest f h hs ih => simpa [require_cons, h, hs] using ih

/-- The pending keys are visited one after the other; a key that names no feature is skipped. -/
theorem require_eq_foldl_visit (c : Catalog) (keys : List String) (s : Selection) :
    require c keys s = (keys.filterMap c.lookup).foldl (visit c) s := by
  induction keys generalizing s with
  | nil => simp
  | cons key rest ih =>
    rw [require_cons]
    cases h : c.lookup key with
    | none => simp [h, ih]
    | some f =>
      rw [List.filterMap_cons_some h, List.foldl_cons, ← ih, visit]
      by_cases hs : f.key ∈ s.keys
      · simp [hs]
      · simp [hs, selectDependencies, require_append]

theorem selectDependencies_eq_foldl_visit (c : Catalog) (f : Feature) (s : Selection) :
    s.selectDependencies c f = (c.dependencies f).foldl (visit c) s :=
  require_eq_foldl_visit c f.dependsOn s

/-- Every selected feature outside `E` has its dependencies selected. -/
def ClosedExcept (c : Catalog) (E : List Feature) (s : Selection) : Prop :=
  ∀ f ∈ c, f.key ∈ s.keys → f ∉ E → ∀ d ∈ c.dependencies f, d.key ∈ s.keys

theorem ClosedExcept.select (hc : c.Distinct) (hd : d ∈ c) (h : s.ClosedExcept c E) :
    (s.select d).ClosedExcept c (d :: E) := by
  intro f hf hs he e hfe
  obtain ⟨hne, he⟩ := not_or.mp (List.mem_cons.not.mp he)
  rcases mem_keys_select.mp hs with hs | hs
  · exact mem_keys_select.mpr (.inl (h f hf hs he e hfe))
  · exact absurd (hc.eq_of_key_eq hf hd hs) hne

theorem ClosedExcept.of_cons (h : s.ClosedExcept c (d :: E))
    (hd : ∀ e ∈ c.dependencies d, e.key ∈ s.keys) : s.ClosedExcept c E := by
  intro f hf hs he e hfe
  by_cases hfd : f = d
  · exact hd e (hfd ▸ hfe)
  · exact h f hf hs (List.mem_cons.not.mpr (not_or.mpr ⟨hfd, he⟩)) e hfe

theorem ClosedExcept.walk_selected (hn : c.Settled n) (h : s.ClosedExcept c E) (hd : d ∈ c)
    (hs : d.key ∈ s.keys) (he : ∀ g ∈ d :: c.walk n d, g ∉ E) :
    ∀ g ∈ c.walk n d, g.key ∈ s.keys := by
  intro g hg
  have hall : d.key ∈ s.keys → (∀ g ∈ d :: c.walk n d, g ∉ E) → g.key ∈ s.keys := by
    refine hn.walk_induction
      (P := fun d => d.key ∈ s.keys → (∀ g ∈ d :: c.walk n d, g ∉ E) → g.key ∈ s.keys)
      (fun d hd hg hs he => ?_) (fun d hd e hde ih hs he => ?_) hd hg
    · exact h d hd hs (he d (List.mem_cons_self ..)) g hg
    · refine ih (h d hd hs (he d (List.mem_cons_self ..)) e hde) fun g hg => ?_
      refine he g (List.mem_cons_of_mem _ ((hn.mem_walk_iff hd).mpr ⟨e, hde, ?_⟩))
      exact List.mem_cons.mp hg
  exact hall hs he

theorem foldl_visit {l : List Feature}
    (hl : ∀ d ∈ l, ∀ s, ClosedExcept c E s →
      visit c s d = (d :: c.walk n d).foldl select s ∧ ClosedExcept c E (visit c s d))
    (hs : s.ClosedExcept c E) :
    l.foldl (visit c) s = (l.flatMap fun d => d :: c.walk n d).foldl select s ∧
      ClosedExcept c E (l.foldl (visit c) s) := by
  induction l generalizing s with
  | nil => exact ⟨rfl, hs⟩
  | cons d l ih =>
    obtain ⟨hv, hc⟩ := hl d (List.mem_cons_self ..) s hs
    obtain ⟨hr, hc⟩ := ih (fun e he => hl e (List.mem_cons_of_mem _ he)) hc
    refine ⟨?_, hc⟩
    rw [List.foldl_cons, hr, hv, List.flatMap_cons, List.foldl_append]

/-- A visit selects the feature and its walk, and leaves the selection as closed as it was. -/
theorem visit_eq (hc : c.Distinct) (hn : c.Settled n) (hd : d ∈ c)
    (he : ∀ g ∈ d :: c.walk n d, g ∉ E) (hs : s.ClosedExcept c E) :
    visit c s d = (d :: c.walk n d).foldl select s ∧ ClosedExcept c E (visit c s d) := by
  refine hn.induction
    (P := fun d => ∀ E s, (∀ g ∈ d :: c.walk n d, g ∉ E) → ClosedExcept c E s →
      visit c s d = (d :: c.walk n d).foldl select s ∧ ClosedExcept c E (visit c s d))
    (fun d hd ih E s he hs => ?_) hd E s he hs
  by_cases hm : d.key ∈ s.keys
  · rw [visit, if_pos hm, List.foldl_cons, select_of_mem hm]
    exact ⟨(foldl_select_of_subset (hs.walk_selected hn hd hm he)).symm, hs⟩
  · -- While `d` is visited its dependencies need not be selected, so `d` joins the exceptions.
    have hdeps : ∀ e ∈ c.dependencies d, ∀ s, ClosedExcept c (d :: E) s →
        visit c s e = (e :: c.walk n e).foldl select s ∧
          ClosedExcept c (d :: E) (visit c s e) := by
      refine fun e hde s hs => ih e hde (d :: E) s (fun g hg hgE => ?_) hs
      have hgd : g ∈ c.walk n d := (hn.mem_walk_iff hd).mpr ⟨e, hde, List.mem_cons.mp hg⟩
      rcases List.mem_cons.mp hgE with rfl | hgE
      · exact hn.not_mem_walk_self hd hgd
      · exact he g (List.mem_cons_of_mem _ hgd) hgE
    obtain ⟨hv, hcl⟩ := foldl_visit hdeps (hs.select hc hd)
    rw [← hn.walk_eq hd] at hv
    rw [visit, if_neg hm, selectDependencies_eq_foldl_visit]
    refine ⟨hv, hcl.of_cons fun e hde => ?_⟩
    rw [hv, mem_keys_foldl_select]
    exact .inr ⟨e, (hn.mem_walk_iff hd).mpr ⟨e, hde, .inl rfl⟩, rfl⟩

/-- Selecting the dependencies of `f` selects its walk, in order. -/
theorem selectDependencies_eq_foldl_select (hc : c.Distinct) (hn : c.Settled n) (hf : f ∈ c)
    (hs : s.ClosedExcept c [f]) :
    s.selectDependencies c f = (c.walk n f).foldl select s := by
  have hdeps : ∀ d ∈ c.dependencies f, ∀ s, ClosedExcept c [f] s →
      visit c s d = (d :: c.walk n d).foldl select s ∧ ClosedExcept c [f] (visit c s d) := by
    refine fun d hd s hs => visit_eq hc hn (Catalog.mem_of_mem_dependencies hd) ?_ hs
    intro g hg hgf
    have hgw : g ∈ c.walk n f := (hn.mem_walk_iff hf).mpr ⟨d, hd, List.mem_cons.mp hg⟩
    exact hn.not_mem_walk_self hf (List.mem_singleton.mp hgf ▸ hgw)
  rw [selectDependencies_eq_foldl_visit, (foldl_visit hdeps hs).1, ← hn.walk_eq hf]

end ClassAnnotator.Selection
