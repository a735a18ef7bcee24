import ClassAnnotator.Decimal.Shortest

/-! # Numbers of a document and their texts

Integers are written in decimal. Other numbers have the fewest digits that read back; they are
written positionally for decimal exponents from -5 to 15, and always with a point or an exponent.
-/

namespace ClassAnnotator

inductive Number where
  | integer (n : Int)
  | float (x : Binary64)
  deriving DecidableEq, Repr

namespace Number

def positionalExponents (e : Int) : Bool :=
  -5 ≤ e && e ≤ 15

/-- Digits with a point after the first `whole` ones; zeros fill up both sides. -/
def positional (digits : List Char) (whole : Int) : List Char :=
  if whole ≤ 0 then '0' :: '.' :: List.replicate (-whole).toNat '0' ++ digits
  else
    let n := whole.toNat
    let front := digits.take n ++ List.replicate (n - digits.length) '0'
    let back := digits.drop n
    front ++ '.' :: (if back.isEmpty then ['0'] else back)

/-- Digits with a point after the first one, if there are more, and the exponent `e`. -/
def scientific (digits : List Char) (e : Int) : List Char :=
  let point := if digits.length ≤ 1 then digits else digits.take 1 ++ '.' :: digits.drop 1
  point ++ 'e' :: (if e < 0 then '-' else '+') :: Nat.toDigits 10 e.natAbs

def floatChars (x : Binary64) : List Char :=
  let s := x.shortest
  let digits := Nat.toDigits 10 s.digits
  let e := s.exponent + digits.length - 1
  let sign := if x.negative then ['-'] else []
  sign ++ if positionalExponents e then positional digits (e + 1) else scientific digits e

def text : Number → String
  | integer n => toString n
  | float x => String.ofList (floatChars x)

end Number

end ClassAnnotator
