import ClassAnnotator.Document.Basic

/-! # Writing a document as a JSON text

`compact` writes no blanks. `pretty` writes each element and member on a line of its own and
indents by two spaces.
-/

namespace ClassAnnotator.Json

/-- A character inside a quoted text. Control characters without a short escape are written by
their code. -/
def escapeChar (c : Char) : List Char :=
  match c with
  | '"' => ['\\', '"']
  | '\\' => ['\\', '\\']
  | '\n' => ['\\', 'n']
  | '\r' => ['\\', 'r']
  | '\t' => ['\\', 't']
  | '\x08' => ['\\', 'b']
  | '\x0c' => ['\\', 'f']
  | c =>
    if c.toNat < 0x20 then
      ['\\', 'u', '0', '0', Nat.digitChar (c.toNat / 16), Nat.digitChar (c.toNat % 16)]
    else [c]

def quoted (s : String) : String :=
  String.ofList ('"' :: s.toList.flatMap escapeChar ++ ['"'])

def word (b : Bool) : String := if b then "true" else "false"

mutual

def compact : Document → String
  | .null => "null"
  | .bool b => word b
  | .number n => n.text
  | .text s => quoted s
  | .list items => "[" ++ ",".intercalate (compactItems items) ++ "]"
  | .table members => "\x7b" ++ ",".intercalate (compactMembers members) ++ "\x7d"

def compactItems : List Document → List String
  | [] => []
  | d :: rest => compact d :: compactItems rest

def compactMembers : List (String × Document) → List String
  | [] => []
  | (name, d) :: rest => (quoted name ++ ":" ++ compact d) :: compactMembers rest

end

/-- The line break before a line that is indented `level` times. -/
def newLine (level : Nat) : String :=
  "\n" ++ String.ofList (List.replicate (2 * level) ' ')

def lines (level : Nat) (parts : List String) : String :=
  newLine (level + 1) ++ ("," ++ newLine (level + 1)).intercalate parts ++ newLine level

mutual

def prettyAt (level : Nat) : Document → String
  | .null => "null"
  | .bool b => word b
  | .number n => n.text
  | .text s => quoted s
  | .list [] => "[]"
  | .list (d :: rest) => "[" ++ lines level (prettyItems (level + 1) (d :: rest)) ++ "]"
  | .table [] => "\x7b\x7d"
  | .table (m :: rest) =>
    "\x7b" ++ lines level (prettyMembers (level + 1) (m :: rest)) ++ "\x7d"

def prettyItems (level : Nat) : List Document → List String
  | [] => []
  | d :: rest => prettyAt level d :: prettyItems level rest

def prettyMembers (level : Nat) : List (String × Document) → List String
  | [] => []
  | (name, d) :: rest => (quoted name ++ ": " ++ prettyAt level d) :: prettyMembers level rest

end

def pretty (d : Document) : String := prettyAt 0 d

end ClassAnnotator.Json
