import ClassAnnotator.Decimal.Binary64
import ClassAnnotator.Text.Digits
import ClassAnnotator.Yaml.Text

/-! # Tags in YAML

A tag is written as a handle and a suffix. What the handle stands for is declared before the
document. Characters can be written byte by byte, also with bytes that are no character.
-/

namespace ClassAnnotator.Yaml

open Text

/-- The text of a tag or of a part of one; none stands for bytes that are no character. -/
abbrev TagText := List (Option Char)

structure Tag where
  handle : List Char
  suffix : TagText
  deriving DecidableEq, Repr

/-- A character of a tag; brackets and commas only between angles. -/
def isTagChar (verbatim : Bool) (c : Char) : Bool :=
  isNameChar c || ";/?:@&=+$.%!~*'()".toList.contains c ||
    (verbatim && (c == ',' || c == '[' || c == ']'))

/-- The number of bytes that a leading byte announces. -/
def byteCount? (b : Nat) : Option Nat :=
  if b < 0x80 then some 1
  else if b < 0xC0 then none
  else if b < 0xE0 then some 2
  else if b < 0xF0 then some 3
  else if b < 0xF8 then some 4
  else none

def escapedByte? : List Char → Option (Nat × List Char)
  | '%' :: a :: b :: r => (number? 16 [a, b]).map (·, r)
  | _ => none

/-- Read `n` further bytes of a character whose bits so far are `bits`. -/
def furtherBytes? : Nat → Nat → List Char → Option (Nat × List Char)
  | 0, bits, cs => some (bits, cs)
  | n + 1, bits, cs => do
    let (b, r) ← escapedByte? cs
    if b / 64 = 2 then furtherBytes? n (bits * 64 + b % 64) r else none

def leastCode : Nat → Nat
  | 2 => 0x80
  | 3 => 0x800
  | 4 => 0x10000
  | _ => 0

def escapedChar? (cs : List Char) : Option (Option Char × List Char) := do
  let (b, r) ← escapedByte? cs
  let n ← byteCount? b
  let (code, r) ← furtherBytes? (n - 1) (if n = 1 then b else b % twoTo (7 - n)) r
  some ((charOfCode? code).filter (leastCode n ≤ ·.toNat), r)

/-- The characters of a tag from here on, and the rest. -/
def tagChars? (verbatim : Bool) : Nat → List Char → Option (TagText × List Char)
  | 0, _ => none
  | fuel + 1, cs =>
    match cs with
    | [] => some ([], [])
    | c :: r =>
      if c == '%' then do
        let (d, r) ← escapedChar? cs
        let (ds, r) ← tagChars? verbatim fuel r
        some (d :: ds, r)
      else if isTagChar verbatim c then do
        let (ds, r) ← tagChars? verbatim fuel r
        some (some c :: ds, r)
      else some ([], cs)

/-- The text up to the first null character, which ends each part of a tag. -/
def upToNull (t : TagText) : TagText := t.takeWhile (· != some '\x00')

def Cursor.moveTo (p : Cursor) (rest : List Char) : Cursor :=
  p.skip (p.rest.length - rest.length)

/-- Part of a tag, which is written with at least one character. -/
def tagText? (verbatim : Bool) (p : Cursor) : Option (TagText × Cursor) :=
  match tagChars? verbatim (p.rest.length + 1) p.rest with
  | some (c :: cs, r) => some (upToNull (c :: cs), p.moveTo r)
  | _ => none

/-- An exclamation mark, a name, and perhaps another mark. -/
def handleChars : List Char → List Char
  | '!' :: r =>
    let name := r.takeWhile isNameChar
    '!' :: name ++ (if (r.dropWhile isNameChar).head? == some '!' then ['!'] else [])
  | _ => []

/-- The handle that a directive declares: `!`, or one that ends in an exclamation mark. -/
def declaredHandle? (p : Cursor) : Option (List Char × Cursor) :=
  let h := handleChars p.rest
  if h == ['!'] || (1 < h.length && h.getLast? == some '!') then some (h, p.skip h.length) else none

/-- A tag that starts here with an exclamation mark. -/
def tag? (p : Cursor) : Option (Tag × Cursor) :=
  match p.rest with
  | '!' :: '<' :: _ => do
    let (suffix, p) ← tagText? true (p.skip 2)
    if p.rest.head? == some '>' then some (⟨[], suffix⟩, p.next) else none
  | _ =>
    let h := handleChars p.rest
    if 1 < h.length && h.getLast? == some '!' then
      (tagText? false (p.skip h.length)).map fun (suffix, p) => (⟨h, suffix⟩, p)
    else do
      let (suffix, r) ← tagChars? false (p.rest.length + 1) p.rest.tail
      let suffix := upToNull suffix
      some (if suffix.isEmpty then ⟨[], [some '!']⟩ else ⟨['!'], suffix⟩, p.moveTo r)

end ClassAnnotator.Yaml
