import ClassAnnotator.Plugin.Basic

/-! # Runs of a host

A host owns a plugin and elements, which it makes when they are first named. A class and an
interface of one name are different elements.
-/

namespace ClassAnnotator

structure Host where
  plugin : Plugin
  elements : List ((ElementKind × String) × Element)

inductive HostStep where
  | reset
  | usePassThrough
  | useConfigured (p : Properties)
  | setProperties (p : Properties)
  | validate (warnings : List String)
  | showSelection
  | modelClass (which : ModelClass) (name : String)
  | accessor (which : Accessor) (name : String)
  | client (name : String)
  | addImport (kind : ElementKind) (name text : String)
  | annotate (kind : ElementKind) (name text : String)
  | augment (kind : ElementKind) (name : String) (p : Properties)
  | showElement (kind : ElementKind) (name : String)

inductive HostAnswer where
  | done
  | validated (accepted : Bool) (warnings : List String)
  | selection (s : Option Selection)
  | checked (keep : Bool) (e : Element)
  | element (e : Element)

namespace Host

def initial : Host := ⟨Plugin.unconfigured, []⟩

/-- The element of that kind and name; a bare one if it has not been named before. -/
def element (h : Host) (kind : ElementKind) (name : String) : Element :=
  (Association.get? (kind, name) h.elements).getD (Element.bare kind name)

def put (h : Host) (kind : ElementKind) (name : String) (e : Element) : Host :=
  { h with elements := Association.put (kind, name) e h.elements }

def step (h : Host) : HostStep → Host × HostAnswer
  | .reset => ({ h with plugin := Plugin.unconfigured }, .done)
  | .usePassThrough => ({ h with plugin := .passThrough }, .done)
  | .useConfigured p => ({ h with plugin := Plugin.configured p }, .done)
  | .setProperties p => ({ h with plugin := h.plugin.setProperties p }, .done)
  | .validate warnings =>
    let (accepted, warnings) := h.plugin.validate warnings
    (h, .validated accepted warnings)
  | .showSelection => (h, .selection h.plugin.selection?)
  | .modelClass which name =>
    let (keep, e) := h.plugin.modelClassGenerated which (h.element .modelClass name)
    (h.put .modelClass name e, .checked keep e)
  | .accessor which name =>
    let e := h.element .modelClass name
    (h, .checked (h.plugin.accessorGenerated which e) e)
  | .client name =>
    let (keep, e) := h.plugin.clientGenerated (h.element .clientInterface name)
    (h.put .clientInterface name e, .checked keep e)
  | .addImport kind name text =>
    let e := (h.element kind name).addImport text
    (h.put kind name e, .element e)
  | .annotate kind name text =>
    let e := (h.element kind name).annotate text
    (h.put kind name e, .element e)
  | .augment kind name p =>
    let e := (h.element kind name).augment p.compile
    (h.put kind name e, .element e)
  | .showElement kind name => (h, .element (h.element kind name))

def run (h : Host) : List HostStep → List HostAnswer
  | [] => []
  | s :: rest =>
    let (next, answer) := h.step s
    answer :: next.run rest

end Host

end ClassAnnotator
