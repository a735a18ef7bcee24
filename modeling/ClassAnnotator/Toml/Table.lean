import ClassAnnotator.Toml.Scalar

/-! # Building tables in TOML

A table comes about by a header, by dotted keys, between braces, or on the way to a table below
it. How it came about decides what may still be added to it.
-/

namespace ClassAnnotator.Toml

inductive Origin where
  /-- On the way to a header further down; a header of its own may follow. -/
  | passage
  /-- By dotted keys, which may still add to it. -/
  | dotted
  | header
  /-- Between braces; nothing can be added to it. -/
  | braces
  deriving DecidableEq, Repr

inductive Node where
  | scalar (d : Document)
  | list (items : List Node)
  | table (origin : Origin) (members : List (String × Node))
  /-- Tables that came about by double headers. -/
  | tables (items : List (List (String × Node)))

abbrev Members := List (String × Node)

def updateLast (f : Members → Option Members) : List Members → Option (List Members)
  | [] => none
  | [last] => (f last).map ([·])
  | first :: rest => (updateLast f rest).map (first :: ·)

/-- Assign a value under a key that dotted keys lead to. On the way, tables may stand that dotted
keys made or that a header passed through, and the last of some tables if another table follows. -/
def assign (members : Members) (value : Node) : List String → Option Members
  | [] => none
  | [key] =>
    match Association.get? key members with
    | none => some (Association.put key value members)
    | some _ => none
  | key :: rest =>
    let add (inner : Members) (origin : Origin) : Option Members :=
      (assign inner value rest).map fun new => Association.put key (.table origin new) members
    match Association.get? key members with
    | none => add [] .dotted
    | some (.table .dotted inner) => add inner .dotted
    | some (.table .passage inner) => add inner .passage
    | some (.tables items) =>
      if rest.length ≤ 1 then none
      else (updateLast (assign · value rest) items).map fun new =>
        Association.put key (.tables new) members
    | some _ => none

def assignAll (members : Members) (entries : List (List String × Node)) : Option Members :=
  entries.foldlM (fun ms (path, value) => assign ms value path) members

def remove (key : String) (members : Members) : Members :=
  members.filter (·.1 != key)

/-- Apply `f` to the members of the table that a header's path leads to; tables that are missing
come about on the way. -/
def descend (f : Members → Option Members) (members : Members) : List String → Option Members
  | [] => f members
  | key :: rest =>
    match Association.get? key members with
    | none =>
      (descend f [] rest).map fun inner => Association.put key (.table .passage inner) members
    | some (.table origin inner) =>
      if origin = .braces then none
      else (descend f inner rest).map fun new => Association.put key (.table origin new) members
    | some (.tables items) =>
      (updateLast (descend f · rest) items).map fun new =>
        Association.put key (.tables new) members
    | some _ => none

/-- Open the table `key` by a header and assign its entries. A table that was passed through moves
to the end. -/
def openTable (key : String) (entries : List (List String × Node)) (members : Members) :
    Option Members :=
  match Association.get? key members with
  | none => (assignAll [] entries).map fun new => Association.put key (.table .header new) members
  | some (.table .passage inner) =>
    (assignAll inner entries).map fun new => remove key members ++ [(key, .table .header new)]
  | some _ => none

/-- Append a table to the tables at `key` by a double header and assign its entries. -/
def appendTable (key : String) (entries : List (List String × Node)) (members : Members) :
    Option Members :=
  match Association.get? key members with
  | none => (assignAll [] entries).map fun new => Association.put key (.tables [new]) members
  | some (.tables items) =>
    (assignAll [] entries).map fun new => Association.put key (.tables (items ++ [new])) members
  | some _ => none

/-- The date or time that a node writes as a text. -/
def Node.dateTime? : Node → Option Document
  | .scalar (.text s) => (Toml.dateTime? s.toList).map dateTimeDocument
  | _ => none

mutual

def Node.document? : Node → Option Document
  | .scalar d => some d
  | .list items => (listDocuments? items).map .list
  | .table _ members => tableDocument? members
  | .tables items => (tableDocuments? items).map .list

/-- The table with the given members. One whose first member has the name that stands for dates
and times must be one of these; its other members are passed over. -/
def tableDocument? : List (String × Node) → Option Document
  | [] => some (.table [])
  | (name, n) :: rest =>
    if name = dateTimeName then n.dateTime?
    else
      match n.document?, documents? rest with
      | some d, some ds => some (.table ((name, d) :: ds))
      | _, _ => none

def documents? : List (String × Node) → Option (List (String × Document))
  | [] => some []
  | (name, n) :: rest =>
    match n.document?, documents? rest with
    | some d, some ds => some ((name, d) :: ds)
    | _, _ => none

def listDocuments? : List Node → Option (List Document)
  | [] => some []
  | n :: rest =>
    match n.document?, listDocuments? rest with
    | some d, some ds => some (d :: ds)
    | _, _ => none

def tableDocuments? : List (List (String × Node)) → Option (List Document)
  | [] => some []
  | members :: rest =>
    match tableDocument? members, tableDocuments? rest with
    | some d, some ds => some (d :: ds)
    | _, _ => none

end

end ClassAnnotator.Toml
