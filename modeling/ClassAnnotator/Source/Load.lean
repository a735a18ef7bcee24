import ClassAnnotator.Document.Flatten
import ClassAnnotator.Source.Format

/-! # Where a configuration comes from

The entries of a file, if one is given, and after them the pairs of the command line.
-/

namespace ClassAnnotator

inductive LoadError where
  | unreadable (path : String)
  | malformed (format : Format) (path : String)
  | invalid (path : String) (cause : FlattenError)
  deriving DecidableEq, Repr

namespace LoadError

/-- What went wrong, without its cause. -/
def headline : LoadError → String
  | unreadable path => "Failed to read plugin properties: " ++ path
  | malformed format path => "Failed to parse " ++ format.name ++ " properties: " ++ path
  | invalid path _ => "Invalid plugin properties: " ++ path

def message : LoadError → String
  | invalid path cause => (invalid path cause).headline ++ ": " ++ cause.message
  | e => e.headline

end LoadError

namespace Properties

/-- The configuration in the file at `path`, where `read` gives the texts of files. -/
def load (read : String → Option String) (path : String) : Except LoadError Properties :=
  match read path with
  | none => .error (.unreadable path)
  | some contents =>
    let format := Format.ofPath path
    match format.read? contents with
    | none => .error (.malformed format path)
    | some document => document.flatten.mapError (.invalid path)

end Properties

structure PropertySource where
  config : Option String
  pairs : List (String × String)
  deriving DecidableEq, Repr

namespace PropertySource

def loadFile (read : String → Option String) (s : PropertySource) : Except LoadError Properties :=
  match s.config with
  | none => .ok .empty
  | some path => Properties.load read path

def load (read : String → Option String) (s : PropertySource) : Except LoadError Properties :=
  (s.loadFile read).map (·.insertAll s.pairs)

end PropertySource

end ClassAnnotator
