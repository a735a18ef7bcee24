/-! # The characters of a YAML text

Line breaks of all kinds but the Unicode line and paragraph separators are read as line feeds.
-/

namespace ClassAnnotator.Yaml

def isPrintable (c : Char) : Bool :=
  let n := c.toNat
  n == 0x09 || n == 0x0A || n == 0x0D || (0x20 ≤ n && n ≤ 0x7E) || n == 0x85 ||
    (0xA0 ≤ n && n ≤ 0xD7FF) || (0xE000 ≤ n && n ≤ 0xFFFD) || 0x10000 ≤ n

/-- Read every line break but the Unicode separators as a line feed. -/
def unifyBreaks : List Char → List Char
  | [] => []
  | '\r' :: '\n' :: r => '\n' :: unifyBreaks r
  | c :: r => (if c == '\r' || c == '\x85' then '\n' else c) :: unifyBreaks r

/-- The characters of a text, if all of them may stand in it. -/
def characters? (s : String) : Option (List Char) :=
  if s.toList.all isPrintable then some (unifyBreaks s.toList) else none

def isBlank (c : Char) : Bool := c == ' ' || c == '\t'

def isBreak (c : Char) : Bool := c == '\n' || c == '\u2028' || c == '\u2029'

def isNameChar (c : Char) : Bool := c.isAlphanum || c == '_' || c == '-'

/-- The text ends here, or goes on with a blank or a line break. -/
def atSpace : List Char → Bool
  | [] => true
  | c :: _ => isBlank c || isBreak c

/-- The marker of a document's start or end stands here. -/
def atMarker (mark : Char) : List Char → Bool
  | a :: b :: c :: r => a == mark && b == mark && c == mark && atSpace r
  | _ => false

def atDocumentMarker (cs : List Char) : Bool := atMarker '-' cs || atMarker '.' cs

/-- A place in a text: what follows it, and where it is. -/
structure Cursor where
  rest : List Char
  /-- The number of bytes before it. -/
  index : Nat
  line : Nat
  column : Nat
  deriving Repr

namespace Cursor

def ofText (cs : List Char) : Cursor := ⟨cs, 0, 0, 0⟩

def next (p : Cursor) : Cursor :=
  match p.rest with
  | [] => p
  | c :: r =>
    if isBreak c then ⟨r, p.index + c.utf8Size, p.line + 1, 0⟩
    else ⟨r, p.index + c.utf8Size, p.line, p.column + 1⟩

def skip : Nat → Cursor → Cursor
  | 0, p => p
  | n + 1, p => skip n p.next

def skipWhile (f : Char → Bool) (p : Cursor) : Cursor :=
  p.skip (p.rest.takeWhile f).length

def taken (f : Char → Bool) (p : Cursor) : List Char := p.rest.takeWhile f

def atSpace (p : Cursor) : Bool := Yaml.atSpace p.rest

/-- At the start of a line with a document marker. -/
def atDocumentMarker (p : Cursor) : Bool := p.column == 0 && Yaml.atDocumentMarker p.rest

/-- Go past blanks and a comment to the end of the line, and past the line break. -/
def endLine? (p : Cursor) : Option Cursor :=
  let p := p.skipWhile isBlank
  let p := if p.rest.head? == some '#' then p.skipWhile (!isBreak ·) else p
  match p.rest with
  | [] => some p
  | c :: _ => if isBreak c then some p.next else none

end Cursor

end ClassAnnotator.Yaml
