import ClassAnnotator.Document.Basic
import ClassAnnotator.Properties

/-! # Flattening a document into properties

A scalar becomes a text under the path of member names that leads to it, a list of scalars the
texts of its elements with commas between them. The first leaf that has no text is an error.
-/

namespace ClassAnnotator

inductive ScalarFault where
  | null
  | nested
  deriving DecidableEq, Repr

inductive FlattenError where
  | notATable
  | noValue (path : String) (fault : ScalarFault)
  | badElement (path : String) (fault : ScalarFault)
  deriving DecidableEq, Repr

def ScalarFault.message : ScalarFault → String
  | null => "null is not a valid property value"
  | nested => "nested value is not a scalar"

def FlattenError.message : FlattenError → String
  | notATable => "expected a table of properties at the top level"
  | noValue path fault => "property '" ++ path ++ "' has no value: " ++ fault.message
  | badElement path fault =>
    "array element of '" ++ path ++ "' must be a scalar: " ++ fault.message

namespace Document

def scalarText : Document → Except ScalarFault String
  | text s => .ok s
  | bool b => .ok (if b then "true" else "false")
  | number n => .ok n.text
  | null => .error .null
  | list _ => .error .nested
  | table _ => .error .nested

def listText (items : List Document) : Except ScalarFault String :=
  (items.mapM scalarText).map (",".intercalate ·)

mutual

def flattenAt (p : Properties) (path : String) : Document → Except FlattenError Properties
  | .table members => flattenMembers p path members
  | .list items => ((listText items).mapError (.badElement path)).map (p.insert path)
  | .null => .error (.noValue path .null)
  | .bool b => .ok (p.insert path (if b then "true" else "false"))
  | .number n => .ok (p.insert path n.text)
  | .text s => .ok (p.insert path s)

def flattenMembers (p : Properties) (path : String) :
    List (String × Document) → Except FlattenError Properties
  | [] => .ok p
  | (name, value) :: rest =>
    match flattenAt p (path ++ "." ++ name) value with
    | .error e => .error e
    | .ok q => flattenMembers q path rest

end

def flattenTop (p : Properties) : List (String × Document) → Except FlattenError Properties
  | [] => .ok p
  | (name, value) :: rest =>
    match flattenAt p name value with
    | .error e => .error e
    | .ok q => flattenTop q rest

def flatten : Document → Except FlattenError Properties
  | .table members => flattenTop .empty members
  | _ => .error .notATable

end Document

end ClassAnnotator
