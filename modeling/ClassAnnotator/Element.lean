import ClassAnnotator.Log.Event
import ClassAnnotator.Selection

/-! # Generated classes and interfaces

An element collects imports and annotations. Nothing that is added is compared with what is
there, so adding twice shows twice.
-/

namespace ClassAnnotator

inductive ElementKind where
  | modelClass
  | clientInterface
  deriving DecidableEq, Repr

def ElementKind.keyword : ElementKind → String
  | modelClass => "class"
  | clientInterface => "interface"

structure Element where
  kind : ElementKind
  name : String
  imports : List String
  annotations : List String
  deriving DecidableEq, Repr

namespace Element

def bare (kind : ElementKind) (name : String) : Element := ⟨kind, name, [], []⟩

def addImport (e : Element) (i : String) : Element :=
  { e with imports := e.imports ++ [i] }

def annotate (e : Element) (a : String) : Element :=
  { e with annotations := e.annotations ++ [a] }

def augment (e : Element) (s : Selection) : Element :=
  s.features.foldl (fun e f => (e.addImport f.feature.importName).annotate f.render) e

def augmentEvent (s : Selection) : Log.Event :=
  ⟨.debug, "annogen::augment", "Attached annotations", [("count", .count s.size)]⟩

def importLines (imports : List String) : String :=
  String.join (imports.map fun i => "import " ++ i ++ ";\n")

def annotationLines (annotations : List String) : String :=
  String.join (annotations.map (· ++ "\n"))

/-- The source text: imports, a blank line if there are any, annotations, and the element. -/
def render (e : Element) : String :=
  importLines e.imports ++ (if e.imports.isEmpty then "" else "\n") ++
    annotationLines e.annotations ++
    "public " ++ e.kind.keyword ++ " " ++ e.name ++ " \x7b\n\x7d"

theorem augment_eq (e : Element) (s : Selection) :
    e.augment s =
      { e with
        imports := e.imports ++ s.imports
        annotations := e.annotations ++ s.annotations } := by
  unfold augment Selection.imports Selection.annotations
  induction s.features generalizing e with
  | nil => simp
  | cons f rest ih => exact (ih _).trans (by simp [addImport, annotate])

end Element

end ClassAnnotator
