import ClassAnnotator.Text.Case

/-! # Features and the catalog

A feature is an annotation that can be attached to a generated class. Keys are matched without
regard to ASCII case.
-/

namespace ClassAnnotator

structure Feature where
  /-- The key that turns the feature on. -/
  key : String
  /-- The annotation with its `@`. -/
  name : String
  /-- The qualified type that a class with the annotation imports. -/
  importName : String
  /-- The keys of the features that this one requires. -/
  dependsOn : List String
  deriving DecidableEq, Repr

/-- The features that can be selected, in the order in which they are declared. -/
abbrev Catalog := List Feature

namespace Catalog

def lookup (c : Catalog) (key : String) : Option Feature :=
  c.find? fun f => Text.sameIgnoringCase f.key key

/-- The features that `f` requires; a key that names no feature is skipped. -/
def dependencies (c : Catalog) (f : Feature) : List Feature :=
  f.dependsOn.filterMap c.lookup

theorem mem_of_lookup {c : Catalog} {key : String} {f : Feature} (h : c.lookup key = some f) :
    f ∈ c :=
  List.mem_of_find?_eq_some h

theorem lookup_congr {c : Catalog} {key key' : String}
    (h : Text.foldCase key = Text.foldCase key') :
    c.lookup key = c.lookup key' := by
  simp only [lookup, Text.sameIgnoringCase, h]

theorem sameIgnoringCase_of_lookup {c : Catalog} {key : String} {f : Feature}
    (h : c.lookup key = some f) : Text.sameIgnoringCase f.key key = true := by
  simpa using List.find?_some h

end Catalog

namespace Feature

def default : Feature := ⟨"data", "@Data", "lombok.Data", []⟩

def catalog : Catalog :=
  [default,
   ⟨"builder", "@Builder", "lombok.Builder", []⟩,
   ⟨"allArgsConstructor", "@AllArgsConstructor", "lombok.AllArgsConstructor",
     ["noArgsConstructor"]⟩,
   ⟨"noArgsConstructor", "@NoArgsConstructor", "lombok.NoArgsConstructor", []⟩,
   ⟨"accessors", "@Accessors", "lombok.experimental.Accessors", []⟩,
   ⟨"toString", "@ToString", "lombok.ToString", []⟩]

def isDefault (f : Feature) : Bool :=
  f.key == default.key

/-- The built-in feature that `key` names, in any case. -/
def lookup (key : String) : Option Feature :=
  catalog.lookup key

end Feature

structure SelectedFeature where
  feature : Feature
  options : List String
  deriving DecidableEq, Repr

namespace SelectedFeature

def push (s : SelectedFeature) (fragment : String) : SelectedFeature :=
  { s with options := s.options ++ [fragment] }

/-- The annotation: its name, and its options in brackets if it has any. -/
def render (s : SelectedFeature) : String :=
  if s.options.isEmpty then s.feature.name
  else s.feature.name ++ "(" ++ ", ".intercalate s.options ++ ")"

theorem toList_render (s : SelectedFeature) :
    s.render.toList =
      if s.options.isEmpty then s.feature.name.toList
      else s.feature.name.toList ++
        '(' :: [',', ' '].intercalate (s.options.map String.toList) ++ [')'] := by
  unfold render
  split
  · rfl
  · simp [String.toList_intercalate]

end SelectedFeature

end ClassAnnotator
