import ClassAnnotator.Toml.Statement

/-! # Reading a document from a TOML text

A section is a header with the entries below it. The sections are put into the root table one
after the other.
-/

namespace ClassAnnotator.Toml

structure Section where
  double : Bool
  path : List String
  entries : List (List String × Node)

/-- The entries before the first header, and the sections. -/
def sections : List Statement → List (List String × Node) × List Section
  | [] => ([], [])
  | .entry path value :: rest =>
    let (entries, after) := sections rest
    ((path, value) :: entries, after)
  | .header path :: rest =>
    let (entries, after) := sections rest
    ([], ⟨false, path, entries⟩ :: after)
  | .doubleHeader path :: rest =>
    let (entries, after) := sections rest
    ([], ⟨true, path, entries⟩ :: after)

def addSection (root : Members) (s : Section) : Option Members :=
  match s.path.getLast? with
  | none => none
  | some key =>
    let put := if s.double then appendTable key s.entries else openTable key s.entries
    descend put root s.path.dropLast

def build? (statements : List Statement) : Option Members := do
  let (entries, after) := sections statements
  let root ← assignAll [] entries
  after.foldlM addSection root

/-- The document that a TOML text holds. A byte order mark in front is passed over. -/
def read? (s : String) : Option Document :=
  let cs := match s.toList with
    | '\uFEFF' :: r => r
    | cs => cs
  do
    let statements ← statements? (fuelFor cs) cs
    let root ← build? statements
    (documents? root).map .table

end ClassAnnotator.Toml
