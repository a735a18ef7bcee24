import Mathlib.Data.List.Induction
import Mathlib.Data.List.Perm.Basic

/-! # First occurrences and groups

`List.eraseDups` keeps the first occurrence of each element. Appending one element to a list
either leaves the result as it is or appends the element, and grouping a list by distinct names
only reorders it.
-/

namespace ClassAnnotator

variable {α β : Type*} [DecidableEq β]

section

variable [DecidableEq α]

theorem eraseDups_concat (l : List α) (a : α) :
    (l ++ [a]).eraseDups = if a ∈ l then l.eraseDups else l.eraseDups ++ [a] := by
  rw [List.eraseDups_append]
  split
  · next h => simp [List.removeAll, h]
  · next h => simp [List.removeAll, h, List.eraseDups_cons]

theorem nodup_eraseDups (l : List α) : l.eraseDups.Nodup := by
  induction l using List.reverseRecOn with
  | nil => simp
  | append_singleton l a ih =>
    rw [eraseDups_concat]
    split
    · exact ih
    · next h =>
      refine List.nodup_append.mpr ⟨ih, by simp, fun b hb c hc he => h ?_⟩
      rwa [← List.mem_singleton.mp hc, ← he, ← List.mem_eraseDups]

theorem eraseDups_of_nodup {l : List α} (h : l.Nodup) : l.eraseDups = l := by
  induction l using List.reverseRecOn with
  | nil => rfl
  | append_singleton l a ih =>
    obtain ⟨hl, -, hd⟩ := List.nodup_append.mp h
    rw [eraseDups_concat, if_neg fun ha => hd a ha a (by simp) rfl, ih hl]

end

/-- Grouping a list by names that are distinct and name every element only reorders it. -/
theorem flatMap_filter_perm {g : α → β} {names : List β} (hn : names.Nodup) {l : List α}
    (h : ∀ a ∈ l, g a ∈ names) :
    (names.flatMap fun b => l.filter fun a => g a = b).Perm l := by
  induction names generalizing l with
  | nil => simp [List.eq_nil_iff_forall_not_mem.mpr fun a ha => List.not_mem_nil (h a ha)]
  | cons b names ih =>
    obtain ⟨hb, hn⟩ := List.nodup_cons.mp hn
    have hrest : ∀ a ∈ l.filter (fun a => !decide (g a = b)), g a ∈ names := by
      intro a ha
      obtain ⟨ha, hne⟩ := List.mem_filter.mp ha
      exact (List.mem_cons.mp (h a ha)).resolve_left (by simpa using hne)
    have hgroup : (names.flatMap fun d => l.filter fun a => g a = d) =
        names.flatMap fun d => (l.filter fun a => !decide (g a = b)).filter fun a => g a = d := by
      refine List.flatMap_congr fun d hd => ?_
      rw [List.filter_filter]
      refine List.filter_congr fun a _ => ?_
      have : g a = d → g a ≠ b := fun e e' => hb (e' ▸ e ▸ hd)
      by_cases hga : g a = d <;> simp [hga]
      exact fun e => this hga (hga.trans e)
    rw [List.flatMap_cons, hgroup]
    exact ((ih hn hrest).append_left _).trans (List.filter_append_perm _ l)

end ClassAnnotator
