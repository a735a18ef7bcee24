import ClassAnnotator.Proofs.Insertion
import Mathlib.Data.Finset.Card

/-! # The map that insertions build

Inserting pairs into the empty configuration gives a map in the order of first insertion: the
place of a key is decided by the first pair with it and its value by the last one. Entries that a
configuration has already can be inserted again without any change.
-/

namespace ClassAnnotator

theorem Association.last?_eq_getLast? {α β : Type*} [DecidableEq α] (key : α)
    (pairs : List (α × β)) :
    last? key pairs = (pairs.filter (·.1 = key)).getLast?.map Prod.snd := by
  induction pairs using List.reverseRecOn with
  | nil => rfl
  | append_singleton pairs e ih =>
    rw [last?_concat, List.filter_append, ih]
    by_cases h : e.1 = key <;> simp [h]

namespace Properties

variable {p : Properties} {key value : String} {pairs : List (String × String)}

theorem size_eq_length_keys (p : Properties) : p.size = p.keys.length := by simp [size, keys]

theorem size_ofList (pairs : List (String × String)) :
    (ofList pairs).size = (pairs.map Prod.fst).toFinset.card := by
  have hkeys : (ofList pairs).keys.toFinset = (pairs.map Prod.fst).toFinset := by
    ext key
    simp only [keys_ofList, List.mem_toFinset, List.mem_eraseDups]
  rw [size_eq_length_keys, ← hkeys]
  exact (List.toFinset_card_of_nodup (ofList pairs).nodup_keys).symm

theorem map_entries_eq (p : Properties) :
    p.entries.map (fun e => (e.1, some e.2)) = p.keys.map fun key => (key, p.get? key) := by
  rw [keys, List.map_map]
  refine List.map_congr_left fun e he => ?_
  rw [Function.comp_apply, get?_eq_some_iff.mpr he]

theorem insert_of_mem (h : (key, value) ∈ p.entries) : p.insert key value = p := by
  apply eq_of_keys_of_get?
  · have hk : key ∈ p.keys := List.mem_map_of_mem h
    rw [keys_insert, if_pos hk]
  · intro k
    rw [get?_insert]
    split
    · next he => rw [← he, get?_eq_some_iff.mpr h]
    · rfl

theorem insertAll_of_subset (h : pairs ⊆ p.entries) : p.insertAll pairs = p := by
  induction pairs with
  | nil => rfl
  | cons e pairs ih =>
    obtain ⟨he, hp⟩ := List.cons_subset.mp h
    change (p.insert e.1 e.2).insertAll pairs = p
    rw [insert_of_mem he, ih hp]

/-- Whichever pairs are inserted one after the other, and however often keys are repeated, the
result is a map. Its keys are distinct and in the order in which they were inserted first, each has
the value of the last pair with it, and other keys have none. The entries are the keys with these
values, and there are as many as different keys were inserted. Inserting entries again, in any order
and number, changes nothing. -/
theorem insertions_build_map (pairs : List (String × String)) :
    Properties.ofList pairs = pairs.foldl (fun q e => q.insert e.1 e.2) .empty ∧
    let p := Properties.ofList pairs
    p.keys.Nodup ∧
    p.keys = (pairs.map Prod.fst).eraseDups ∧
    (∀ key, p.get? key = (pairs.filter (·.1 = key)).getLast?.map Prod.snd) ∧
    p.entries.map (fun e => (e.1, some e.2)) = p.keys.map (fun key => (key, p.get? key)) ∧
    p.size = (pairs.map Prod.fst).toFinset.card ∧
    ∀ again, again ⊆ p.entries → again.foldl (fun q e => q.insert e.1 e.2) p = p := by
  have hkeys := keys_ofList pairs
  refine ⟨rfl, hkeys ▸ nodup_eraseDups _, hkeys, fun key => ?_, map_entries_eq _,
    size_ofList pairs, fun again => insertAll_of_subset⟩
  rw [get?_ofList, Association.last?_eq_getLast?]

theorem insertions_build_map_of_repeated_keys :
    let pairs := [("a", "1"), ("b", "2"), ("a", "3"), ("", "4"), ("b", "2"), ("A", "5")]
    let p := Properties.ofList pairs
    p.keys = ["a", "b", "", "A"] ∧ p.get? "a" = some "3" ∧ p.get? "c" = none ∧ p.size = 4 ∧
      [("A", "5"), ("a", "3"), ("A", "5")].foldl (fun q e => q.insert e.1 e.2) p = p := by
  intro pairs p
  obtain ⟨-, -, hkeys, hget, -, hsize, hagain⟩ := insertions_build_map pairs
  exact ⟨hkeys.trans (by decide), (hget "a").trans (by decide), (hget "c").trans (by decide),
    hsize.trans (by decide), hagain _ (by decide)⟩

end Properties

end ClassAnnotator
