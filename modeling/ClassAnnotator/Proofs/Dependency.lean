import ClassAnnotator.Feature
import Mathlib.Data.List.Nodup

/-! # Dependency walks

A walk lists what a feature requires, depth first. A catalog is settled at a depth when following
the dependencies of its features any deeper adds nothing. No feature of a settled catalog requires
itself, so walks can be reasoned about by induction along dependencies.
-/

namespace ClassAnnotator

namespace Catalog

/-- What `f` requires, depth first and at most `n` levels deep. A feature that is met more than
once is listed more than once. -/
def walk (c : Catalog) : ℕ → Feature → List Feature
  | 0, _ => []
  | n + 1, f => (c.dependencies f).flatMap fun d => d :: c.walk n d

/-- No two features share a key, in any case. -/
def Distinct (c : Catalog) : Prop := (c.map fun f => Text.foldCase f.key).Nodup

/-- All that a feature requires is met within `n` levels. -/
def Settled (c : Catalog) (n : ℕ) : Prop := ∀ f ∈ c, c.walk (n + 1) f = c.walk n f

instance (c : Catalog) : Decidable c.Distinct := inferInstanceAs (Decidable (List.Nodup _))

instance (c : Catalog) (n : ℕ) : Decidable (c.Settled n) :=
  inferInstanceAs (Decidable (∀ f ∈ c, _))

variable {c : Catalog} {n : ℕ} {f g d : Feature}

theorem Distinct.eq_of_foldCase_eq (h : c.Distinct) (hf : f ∈ c) (hg : g ∈ c)
    (he : Text.foldCase f.key = Text.foldCase g.key) : f = g :=
  List.inj_on_of_nodup_map h hf hg he

theorem Distinct.eq_of_key_eq (h : c.Distinct) (hf : f ∈ c) (hg : g ∈ c)
    (he : f.key = g.key) : f = g :=
  h.eq_of_foldCase_eq hf hg (by rw [he])

theorem mem_of_mem_dependencies (h : d ∈ c.dependencies f) : d ∈ c := by
  obtain ⟨_, _, hk⟩ := List.mem_filterMap.mp h
  exact mem_of_lookup hk

theorem Settled.walk_eq (h : c.Settled n) (hf : f ∈ c) :
    c.walk n f = (c.dependencies f).flatMap fun d => d :: c.walk n d :=
  (h f hf).symm

theorem Settled.length_walk_lt (h : c.Settled n) (hf : f ∈ c) (hd : d ∈ c.dependencies f) :
    (c.walk n d).length < (c.walk n f).length := by
  obtain ⟨l, r, hl⟩ := List.append_of_mem hd
  rw [h.walk_eq hf, hl]
  simp
  omega

/-- Induction along dependencies. -/
theorem Settled.induction (h : c.Settled n) {P : Feature → Prop}
    (step : ∀ f ∈ c, (∀ d ∈ c.dependencies f, P d) → P f) (hf : f ∈ c) : P f := by
  induction hk : (c.walk n f).length using Nat.strongRecOn generalizing f with
  | _ k ih =>
    refine step f hf fun d hd => ih _ ?_ (mem_of_mem_dependencies hd) rfl
    exact hk ▸ h.length_walk_lt hf hd

theorem Settled.mem_walk_iff (h : c.Settled n) (hf : f ∈ c) :
    g ∈ c.walk n f ↔ ∃ d ∈ c.dependencies f, g = d ∨ g ∈ c.walk n d := by
  rw [h.walk_eq hf]
  simp

/-- Induction along the dependencies that lead to a member of a walk. -/
theorem Settled.walk_induction (h : c.Settled n) {P : Feature → Prop}
    (direct : ∀ f ∈ c, g ∈ c.dependencies f → P f)
    (through : ∀ f ∈ c, ∀ d ∈ c.dependencies f, P d → P f)
    (hf : f ∈ c) (hg : g ∈ c.walk n f) : P f := by
  have hall : g ∈ c.walk n f → P f := by
    refine h.induction (P := fun f => g ∈ c.walk n f → P f) (fun f hf ih hg => ?_) hf
    obtain ⟨d, hd, rfl | hg⟩ := (h.mem_walk_iff hf).mp hg
    · exact direct f hf hd
    · exact through f hf d hd (ih d hd hg)
  exact hall hg

theorem Settled.mem_of_mem_walk (h : c.Settled n) (hf : f ∈ c) (hg : g ∈ c.walk n f) : g ∈ c :=
  h.walk_induction (P := fun _ => g ∈ c) (fun _ _ hg => mem_of_mem_dependencies hg)
    (fun _ _ _ _ hg => hg) hf hg

theorem Settled.dependencies_subset_walk (h : c.Settled n) (hf : f ∈ c) (hg : g ∈ c.walk n f)
    (hd : d ∈ c.dependencies g) : d ∈ c.walk n f := by
  refine h.walk_induction (P := fun f => d ∈ c.walk n f) (fun f hf hg => ?_)
    (fun f hf e he hd => ?_) hf hg
  · have hdg := (h.mem_walk_iff (mem_of_mem_dependencies hg)).mpr ⟨d, hd, .inl rfl⟩
    exact (h.mem_walk_iff hf).mpr ⟨g, hg, .inr hdg⟩
  · exact (h.mem_walk_iff hf).mpr ⟨e, he, .inr hd⟩

theorem Settled.length_walk_lt_of_mem (h : c.Settled n) (hf : f ∈ c) (hg : g ∈ c.walk n f) :
    (c.walk n g).length < (c.walk n f).length :=
  h.walk_induction (P := fun f => (c.walk n g).length < (c.walk n f).length)
    (fun _ hf hg => h.length_walk_lt hf hg)
    (fun _ hf _ hd ih => Nat.lt_trans ih (h.length_walk_lt hf hd)) hf hg

theorem Settled.not_mem_walk_self (h : c.Settled n) (hf : f ∈ c) : f ∉ c.walk n f :=
  fun hm => Nat.lt_irrefl _ (h.length_walk_lt_of_mem hf hm)

end Catalog

end ClassAnnotator
