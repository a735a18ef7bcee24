import ClassAnnotator.Yaml.Node
import ClassAnnotator.Yaml.Value

/-! # Reading a document from a YAML text

Aliases are replaced by the nodes that they stand for. The depth of the document and the number of
aliases that are replaced are limited; an alias inside its own node goes beyond both and is refused.
Of members with one name, the last gives the value and the first gives the place.
-/

namespace ClassAnnotator.Yaml

/-- What aliases stand for, and how many may be replaced. -/
structure Anchors where
  targets : Node.Targets
  limit : Nat

/-- A computation that may fail and counts the aliases that it replaces. -/
abbrev Counted := StateT Nat Option

def depthLimit : Nat := 128

namespace Anchors

def follow? (a : Anchors) : Node → Counted Node
  | .aliasOf label => do
    let count ← get
    if count < a.limit then
      set (count + 1)
      StateT.lift (Association.get? label a.targets)
    else failure
  | n => pure n

/-- The name of a member: a scalar, as it is written. -/
def name? (a : Anchors) (n : Node) : Counted String := do
  match ← a.follow? n with
  | .scalar _ text _ => pure text
  | _ => failure

/-- The document of a node that may hold `depth` further lists and tables in one another. -/
def document? (a : Anchors) (depth : Nat) (n : Node) : Counted Document := do
  match ← a.follow? n with
  | .aliasOf _ => failure
  | .scalar m text plain => StateT.lift (scalarDocument? m.tag text plain)
  | .list m items =>
    match depth with
    | 0 => failure
    | depth + 1 =>
      if m.tag.any isRefused then failure
      else return .list (← items.mapM (a.document? depth))
  | .table m members =>
    match depth with
    | 0 => failure
    | depth + 1 =>
      if m.tag.any isRefused then failure
      else return .table (← members.foldlM
        (fun done (k, v) => do
          return Association.put (← a.name? k) (← a.document? depth v) done) [])

end Anchors

/-- The document that the events describe; without events, it is null. -/
def document? (events : List Event) : Option Document :=
  if events.isEmpty then some .null
  else do
    let n ← Node.ofEvents? events
    (·.1) <$> (Anchors.document? ⟨n.targets, 100 * events.length⟩ depthLimit n).run 0

def read? (s : String) : Option Document := do
  let tokens ← tokens? (← characters? s)
  document? (← Event.ofTokens? tokens)

end ClassAnnotator.Yaml
