import ClassAnnotator.Compile
import ClassAnnotator.Element

/-! # The plugin of a code generator

The generator calls the plugin at checkpoints. An annotating plugin attaches its selection to
every model class, drops accessor methods and marks client interfaces as mappers. A plugin that
passes through keeps all elements as they are.
-/

namespace ClassAnnotator

inductive Plugin where
  | passThrough
  | annotating (selection : Selection)
  deriving DecidableEq, Repr

/-- The model classes that a generator makes for a table. -/
inductive ModelClass where
  | baseRecord
  | primaryKey
  | recordWithBlobs
  deriving DecidableEq, Repr

inductive Accessor where
  | getter
  | setter
  deriving DecidableEq, Repr

namespace Plugin

def mapperImport : String := "org.apache.ibatis.annotations.Mapper"

def mapperName : String := "@Mapper"

def unconfigured : Plugin := annotating Selection.initial

def setProperties (plugin : Plugin) (p : Properties) : Plugin :=
  match plugin with
  | passThrough => passThrough
  | annotating _ => annotating p.compile

def configured (p : Properties) : Plugin := unconfigured.setProperties p

def selection? : Plugin → Option Selection
  | passThrough => none
  | annotating s => some s

/-- Whether the configuration is acceptable, and the warnings; it always is. -/
def validate (_ : Plugin) (warnings : List String) : Bool × List String :=
  (true, warnings)

/-- Whether a model class is kept, and what becomes of it. -/
def modelClassGenerated (plugin : Plugin) (_ : ModelClass) (e : Element) : Bool × Element :=
  match plugin with
  | passThrough => (true, e)
  | annotating s => (true, e.augment s)

def modelClassEvents (plugin : Plugin) (e : Element) (table : String) : List Log.Event :=
  match plugin with
  | passThrough => []
  | annotating s =>
    [⟨.debug, "annogen::plugin::annotation", "Annotating model class",
      [("class", .text e.name), ("table", .text table)]⟩,
     Element.augmentEvent s]

def accessorGenerated (plugin : Plugin) (_ : Accessor) (_ : Element) : Bool :=
  match plugin with
  | passThrough => true
  | annotating _ => false

def clientGenerated (plugin : Plugin) (e : Element) : Bool × Element :=
  match plugin with
  | passThrough => (true, e)
  | annotating _ => (true, (e.addImport mapperImport).annotate mapperName)

end Plugin

end ClassAnnotator
