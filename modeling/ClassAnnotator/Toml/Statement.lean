import ClassAnnotator.Toml.Table
import ClassAnnotator.Toml.Text

/-! # Statements of a TOML text

A statement is a header or an entry, and stands on lines of its own.
-/

namespace ClassAnnotator.Toml

open Text

/-- Skip blanks, line breaks and comments; a comment stops at a character that it may not hold. -/
def skipSpace (comment : Bool) : List Char → List Char
  | [] => []
  | '\n' :: r => skipSpace false r
  | '\r' :: '\n' :: r => skipSpace false r
  | c :: r =>
    if comment then (if isPlain c then skipSpace true r else c :: r)
    else if c == '#' then skipSpace true r
    else if isBlank c then skipSpace false r
    else c :: r

def skipBlanks (cs : List Char) : List Char := cs.dropWhile isBlank

/-- The end of a line, after blanks and a comment. -/
def endLine? (cs : List Char) : Option (List Char) :=
  let rest := match skipBlanks cs with
    | '#' :: r => r.dropWhile isPlain
    | r => r
  if rest.isEmpty then some [] else afterBreak? rest

def isBareChar (c : Char) : Bool := c.isAlphanum || c == '_' || c == '-'

def simpleKey? (cs : List Char) : Option (String × List Char) :=
  match lineText? cs with
  | some found => some found
  | none =>
    let bare := cs.takeWhile isBareChar
    if bare.isEmpty then none else some (String.ofList bare, cs.dropWhile isBareChar)

/-- A key with points between its parts, at most `limit` of them, and the rest after blanks. -/
def parts? : Nat → List Char → Option (List String × List Char)
  | 0, _ => none
  | limit + 1, cs => do
    let (part, r) ← simpleKey? cs
    match skipBlanks r with
    | '.' :: r =>
      let (parts, r) ← parts? limit (skipBlanks r)
      some (part :: parts, r)
    | r => some ([part], r)

def partLimit : Nat := 80

def key? (cs : List Char) : Option (List String × List Char) := parts? partLimit cs

def isScalarChar (c : Char) : Bool :=
  c.isAlphanum || c == '_' || c == '-' || c == '+' || c == '.' || c == ':'

/-- An unquoted value. After a date, a blank may stand before the time. -/
def bareValue? (cs : List Char) : Option (Document × List Char) :=
  let front := cs.takeWhile isScalarChar
  let rest := cs.dropWhile isScalarChar
  match date? front, rest with
  | some (_, []), ' ' :: c :: r =>
    if c.isDigit then
      let time := (c :: r).takeWhile isScalarChar
      (scalar? (front ++ ' ' :: time)).map (·, (c :: r).dropWhile isScalarChar)
    else (scalar? front).map (·, rest)
  | _, _ => (scalar? front).map (·, rest)

def depthLimit : Nat := 80

mutual

/-- A value; `depth` more lists and inline tables may open in it. -/
def value? (fuel depth : Nat) (cs : List Char) : Option (Node × List Char) :=
  match fuel with
  | 0 => none
  | fuel + 1 =>
    match cs with
    | '[' :: r =>
      if depth = 0 then none
      else (items? fuel (depth - 1) [] (skipSpace false r)).map fun (items, r) => (.list items, r)
    | '{' :: r =>
      if depth = 0 then none
      else
        (members? fuel (depth - 1) [] (skipSpace false r)).map fun (members, r) =>
          (.table .braces members, r)
    | cs =>
      match quotedText? cs with
      | some (s, r) => some (.scalar (.text s), r)
      | none => (bareValue? cs).map fun (d, r) => (.scalar d, r)

/-- The elements of a list from here to its end, after those in `done`, which are in reverse
order. -/
def items? (fuel depth : Nat) (done : List Node) (cs : List Char) :
    Option (List Node × List Char) :=
  match fuel with
  | 0 => none
  | fuel + 1 =>
    match cs with
    | ']' :: r => some (done.reverse, r)
    | cs =>
      match value? fuel depth cs with
      | none => none
      | some (n, r) =>
        match skipSpace false r with
        | ',' :: r => items? fuel depth (n :: done) (skipSpace false r)
        | ']' :: r => some ((n :: done).reverse, r)
        | _ => none

def members? (fuel depth : Nat) (done : Members) (cs : List Char) :
    Option (Members × List Char) :=
  match fuel with
  | 0 => none
  | fuel + 1 =>
    match cs with
    | '}' :: r => some (done, r)
    | cs =>
      match key? cs with
      | some (path, '=' :: r) =>
        match value? fuel depth (skipBlanks r) with
        | none => none
        | some (n, r) =>
          match assign done n path with
          | none => none
          | some new =>
            match skipSpace false r with
            | ',' :: r => members? fuel depth new (skipSpace false r)
            | '}' :: r => some (new, r)
            | _ => none
      | _ => none

end

inductive Statement where
  | header (path : List String)
  | doubleHeader (path : List String)
  | entry (path : List String) (value : Node)

/-- Steps that are enough to read `cs`. -/
def fuelFor (cs : List Char) : Nat := 2 * cs.length + 2

/-- A statement that starts here, and what follows it on its last line. -/
def statement? (cs : List Char) : Option (Statement × List Char) :=
  match cs with
  | '[' :: '[' :: r =>
    match key? (skipBlanks r) with
    | some (path, ']' :: ']' :: r) => some (.doubleHeader path, r)
    | _ => none
  | '[' :: r =>
    match key? (skipBlanks r) with
    | some (path, ']' :: r) => some (.header path, r)
    | _ => none
  | cs =>
    match key? cs with
    | some (path, '=' :: r) =>
      (value? (fuelFor r) depthLimit (skipBlanks r)).map fun (n, r) => (.entry path n, r)
    | _ => none

/-- The statements of a text; every statement ends its line. -/
def statements? : Nat → List Char → Option (List Statement)
  | 0, _ => none
  | fuel + 1, cs =>
    match skipSpace false cs with
    | [] => some []
    | cs => do
      let (s, r) ← statement? cs
      let r ← endLine? r
      let rest ← statements? fuel r
      some (s :: rest)

end ClassAnnotator.Toml
