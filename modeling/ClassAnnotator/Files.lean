import ClassAnnotator.Text.Split

/-! # Paths and files

Files are found relative to a working directory. A path is read part by part; empty parts and
single points stay where they are.
-/

namespace ClassAnnotator

/-- What stands at a name in a directory. -/
inductive FileContents where
  | directory
  | text (s : String)
  /-- A file that is not a text. -/
  | binary
  deriving DecidableEq, Repr

abbrev Directory := List (List String × FileContents)

namespace Path

def parts (path : String) : List String :=
  (Text.splitEach '/' path.toList).map String.ofList

/-- The last part that names something. -/
def fileName? (path : String) : Option String :=
  (((parts path).filter fun part => part != "" && part != ".").getLast?).filter (· != "..")

/-- What follows the last point of the file name. A point that starts the name does not count. -/
def suffix? (path : String) : Option String :=
  (fileName? path).bind fun name =>
    match Text.splitFirst? '.' name.toList.reverse with
    | some (after, before) => if before.isEmpty then none else some (String.ofList after.reverse)
    | none => none

end Path

namespace Directory

def at? (d : Directory) (place : List String) : Option FileContents :=
  if place.isEmpty || d.any fun (p, _) => place.isPrefixOf p && place != p then some .directory
  else (d.find? (·.1 == place)).map (·.2)

/-- Follow the parts of a path from a place. Only directories lead on, and nothing leads out of
the working directory. -/
def follow (d : Directory) (place : List String) : List String → Option (List String)
  | [] => some place
  | part :: rest =>
    if d.at? place != some .directory then none
    else if part == "" || part == "." then d.follow place rest
    else if part == ".." then if place.isEmpty then none else d.follow place.dropLast rest
    else d.follow (place ++ [part]) rest

def read? (d : Directory) (path : String) : Option String :=
  if path == "" || path.toList.head? == some '/' then none
  else
    match (d.follow [] (Path.parts path)).bind d.at? with
    | some (.text s) => some s
    | _ => none

end Directory

end ClassAnnotator
