import ClassAnnotator.Association
import ClassAnnotator.Document.Number

/-! # Documents

What a configuration file says, whatever format it is written in. The members of a table are in
the order of the file.
-/

namespace ClassAnnotator

inductive Document where
  | null
  | bool (b : Bool)
  | number (n : Number)
  | text (s : String)
  | list (items : List Document)
  | table (members : List (String × Document))

end ClassAnnotator
