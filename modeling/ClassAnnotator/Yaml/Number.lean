import ClassAnnotator.Document.Basic
import ClassAnnotator.Text.Digits

/-! # Numbers in YAML

Integers in four bases and decimal floats. Digits with a zero in front are no decimal number.
Infinities and values that are no number are read as null.
-/

namespace ClassAnnotator.Yaml

open Text

/-- Several digits of which the first one is a zero. -/
def isPadded (cs : List Char) : Bool :=
  1 < cs.length && cs.head? == some '0' && cs.all (isDigitIn 10)

def unsigned : List Char → List Char
  | '+' :: r => r
  | '-' :: r => r
  | cs => cs

def magnitude? : List Char → Option Nat
  | '0' :: 'x' :: r => number? 16 r
  | '0' :: 'o' :: r => number? 8 r
  | '0' :: 'b' :: r => number? 2 r
  | cs => if isPadded cs then none else number? 10 cs

def integer? (cs : List Char) : Option Int :=
  (magnitude? (unsigned cs)).map fun n => if cs.head? == some '-' then -n else n

/-- Integers of 64 bits, signed or not. -/
def fits (i : Int) : Bool := -(twoTo 63 : Int) ≤ i && i < twoTo 64

/-- Integers of 128 bits, signed or not. -/
def isWide (i : Int) : Bool := -(twoTo 127 : Int) ≤ i && i < twoTo 128

/-- The exponent that ends a float; nothing stands for zero. -/
def exponent? : List Char → Option Int
  | [] => some 0
  | c :: r =>
    if c == 'e' || c == 'E' then
      let e := number? 10 (unsigned r)
      e.map fun n => if r.head? == some '-' then -n else n
    else none

def decimal? (cs : List Char) : Option Binary64 := do
  let r := unsigned cs
  let whole := r.takeWhile (isDigitIn 10)
  let r := r.dropWhile (isDigitIn 10)
  let (fraction, r) := match r with
    | '.' :: r => (r.takeWhile (isDigitIn 10), r.dropWhile (isDigitIn 10))
    | r => ([], r)
  let digits := whole ++ fraction
  let e ← exponent? r
  if digits.isEmpty then none
  Binary64.ofDecimal? (cs.head? == some '-') (decimalValue digits) (e - fraction.length)

def isInfinite (cs : List Char) : Bool :=
  [".inf", ".Inf", ".INF"].contains (String.ofList (unsigned cs))

def isNotANumber (cs : List Char) : Bool :=
  [".nan", ".NaN", ".NAN"].contains (String.ofList cs)

def float? (cs : List Char) : Option Document :=
  if isInfinite cs || isNotANumber cs then some .null
  else (decimal? cs).map (.number <| .float ·)

end ClassAnnotator.Yaml
