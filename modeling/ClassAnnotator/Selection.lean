import ClassAnnotator.Association
import ClassAnnotator.Feature

/-! # Selections

The features chosen for a run, in the order of their annotations, each under the key by which it
was selected. `require` closes a selection under dependencies, for any catalog.
-/

namespace ClassAnnotator

/-- Selected features by key, in the order of selection. -/
structure Selection where
  entries : List (String × SelectedFeature)
  deriving DecidableEq, Repr

namespace Selection

def initial : Selection := ⟨[(Feature.default.key, ⟨Feature.default, []⟩)]⟩

def features (s : Selection) : List SelectedFeature :=
  s.entries.map Prod.snd

/-- Two selections are the same when they list the same features with the same options. -/
instance : BEq Selection := ⟨fun s t => s.features == t.features⟩

def keys (s : Selection) : List String :=
  s.entries.map Prod.fst

def imports (s : Selection) : List String :=
  s.features.map (·.feature.importName)

def annotations (s : Selection) : List String :=
  s.features.map (·.render)

def size (s : Selection) : Nat :=
  s.entries.length

def isEmpty (s : Selection) : Bool :=
  s.entries.isEmpty

/-- What is stored under the key of the feature that `key` names, in any case. -/
def get? (s : Selection) (key : String) : Option SelectedFeature :=
  (Feature.lookup key).bind fun f => Association.get? f.key s.entries

def contains (s : Selection) (key : String) : Bool :=
  (s.get? key).isSome

/-- Append `f` without options under its key, unless something is stored under it. -/
def select (s : Selection) (f : Feature) : Selection :=
  if f.key ∈ s.keys then s else ⟨s.entries ++ [(f.key, ⟨f, []⟩)]⟩

/-- Append option fragments to what is stored under `key`. -/
def addOptions (s : Selection) (key : String) (fragments : List String) : Selection :=
  ⟨s.entries.map fun (k, g) =>
    (k, if k = key then { g with options := g.options ++ fragments } else g)⟩

/-- The features of the catalog whose keys are not selected. -/
def unselected (c : Catalog) (s : Selection) : List Feature :=
  c.filter fun f => f.key ∉ s.keys

theorem keys_select (s : Selection) (f : Feature) :
    (s.select f).keys = if f.key ∈ s.keys then s.keys else s.keys ++ [f.key] := by
  unfold select
  split <;> simp [keys]

theorem unselected_select {c : Catalog} {s : Selection} {f : Feature} (h : f.key ∉ s.keys) :
    (s.select f).unselected c = (s.unselected c).filter (·.key ≠ f.key) := by
  rw [unselected, unselected, List.filter_filter]
  refine List.filter_congr fun g _ => ?_
  rw [keys_select, if_neg h, ← Bool.decide_and, decide_eq_decide, List.mem_append,
    List.mem_singleton, not_or, and_comm]

theorem unselected_select_lt {c : Catalog} {s : Selection} {f : Feature} (hf : f ∈ c)
    (h : f.key ∉ s.keys) : ((s.select f).unselected c).length < (s.unselected c).length := by
  rw [unselected_select h, List.length_filter_lt_length_iff_exists]
  exact ⟨f, List.mem_filter.mpr ⟨hf, decide_eq_true h⟩, by simp⟩

/-- Select the features that the pending keys name and what these require, depth first. A key
that is selected is not followed, so the walk ends on cyclic catalogs too. -/
def require (c : Catalog) (pending : List String) (s : Selection) : Selection :=
  match pending with
  | [] => s
  | key :: rest =>
    match _hf : c.lookup key with
    | none => require c rest s
    | some f =>
      if _hs : f.key ∈ s.keys then require c rest s
      else require c (f.dependsOn ++ rest) (s.select f)
termination_by ((s.unselected c).length, pending.length)
decreasing_by
  · exact .right _ (by simp)
  · exact .right _ (by simp)
  · exact .left _ _ (unselected_select_lt (Catalog.mem_of_lookup _hf) _hs)

def selectDependencies (c : Catalog) (f : Feature) (s : Selection) : Selection :=
  require c f.dependsOn s

end Selection

end ClassAnnotator
