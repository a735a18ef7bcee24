import ClassAnnotator.Yaml.Event

/-! # The nodes of a YAML document

The events are put together into a tree, and the names of anchors are replaced by labels. A name
that stands for a second node takes a new label, which a later name may take as well; of nodes
with one label, the last one is meant.
-/

namespace ClassAnnotator.Yaml

/-- What a node is marked with: the label that aliases know it by, and its tag. -/
structure Marks where
  label : Option Nat
  tag : Option TagText
  deriving DecidableEq, Repr

inductive Node where
  | aliasOf (label : Nat)
  | scalar (marks : Marks) (text : String) (plain : Bool)
  | list (marks : Marks) (items : List Node)
  | table (marks : Marks) (members : List (Node × Node))

namespace Node

/-- The labels that names of anchors stand for. -/
abbrev Names := List (String × Nat)

/-- The marks of a node with the given properties, and the names after it. -/
def marks (names : Names) (p : NodeProperties) : Marks × Names :=
  match p.anchor with
  | none => (⟨none, p.tag⟩, names)
  | some a => (⟨some names.length, p.tag⟩, Association.put a names.length names)

/-- A list or a table whose end has not come; what it holds is in reverse order. -/
inductive Frame where
  | list (marks : Marks) (done : List Node)
  | table (marks : Marks) (done : List (Node × Node)) (key : Option Node)

structure Builder where
  names : Names
  outer : List Frame
  root : Option Node

namespace Builder

def start : Builder := ⟨[], [], none⟩

def put (b : Builder) (n : Node) : Builder :=
  match b.outer with
  | [] => { b with root := some n }
  | .list m done :: outer => { b with outer := .list m (n :: done) :: outer }
  | .table m done none :: outer => { b with outer := .table m done (some n) :: outer }
  | .table m done (some k) :: outer => { b with outer := .table m ((k, n) :: done) none :: outer }

def step? (b : Builder) : Event → Option Builder
  | .aliasOf name => (Association.get? name b.names).map fun label => b.put (.aliasOf label)
  | .scalar p text plain =>
    let (m, names) := marks b.names p
    some ({ b with names }.put (.scalar m text plain))
  | .listStart p =>
    let (m, names) := marks b.names p
    some { b with names, outer := .list m [] :: b.outer }
  | .tableStart p =>
    let (m, names) := marks b.names p
    some { b with names, outer := .table m [] none :: b.outer }
  | .listEnd =>
    match b.outer with
    | .list m done :: outer => some ({ b with outer }.put (.list m done.reverse))
    | _ => none
  | .tableEnd =>
    match b.outer with
    | .table m done none :: outer => some ({ b with outer }.put (.table m done.reverse))
    | _ => none

end Builder

/-- The node that the events of a document describe. An alias must come after its anchor. -/
def ofEvents? (events : List Event) : Option Node :=
  (events.foldlM Builder.step? Builder.start).bind (·.root)

abbrev Targets := List (Nat × Node)

def mark (m : Marks) (n : Node) (targets : Targets) : Targets :=
  match m.label with
  | none => targets
  | some label => Association.put label n targets

mutual

/-- Add the labelled nodes from this one on, in the order in which they start. -/
def addTargets (targets : Targets) : Node → Targets
  | aliasOf _ => targets
  | scalar m text plain => mark m (.scalar m text plain) targets
  | list m items => addItems (mark m (.list m items) targets) items
  | table m members => addMembers (mark m (.table m members) targets) members

def addItems (targets : Targets) : List Node → Targets
  | [] => targets
  | n :: rest => addItems (addTargets targets n) rest

def addMembers (targets : Targets) : List (Node × Node) → Targets
  | [] => targets
  | (k, v) :: rest => addMembers (addTargets (addTargets targets k) v) rest

end

def targets (n : Node) : Targets := addTargets [] n

end Node

end ClassAnnotator.Yaml
