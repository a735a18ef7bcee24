import ClassAnnotator.Document.Number
import ClassAnnotator.Text.Digits

/-! # Reading JSON numbers

The digits are gathered into a significand of 64 bits. Digits of the integer part that no longer
fit only raise the exponent, and digits of the fraction that no longer fit are dropped. The
result is the significand, rounded, times or divided by one power of ten, rounded again. So it can
differ in the last place from the number nearest to the text. A number that is too great is
refused.
-/

namespace ClassAnnotator.Json

open Text

structure NumberParts where
  negative : Bool
  whole : List Char
  /-- Empty if there is no point. -/
  fraction : List Char
  /-- The sign and the digits of the exponent. -/
  exponent : Option (Bool × List Char)
  deriving DecidableEq, Repr

def isDigit (c : Char) : Bool := isDigitIn 10 c

/-- The exponent after the mantissa: nothing, or a mark, a sign and digits. -/
def exponentPart? : List Char → Option (Option (Bool × List Char))
  | [] => some none
  | c :: r =>
    let (negative, digits) := match r with
      | '-' :: ds => (true, ds)
      | '+' :: ds => (false, ds)
      | ds => (false, ds)
    if (c == 'e' || c == 'E') && !digits.isEmpty && digits.all isDigit then
      some (some (negative, digits))
    else none

namespace NumberParts

/-- Split a text by the grammar of numbers. -/
def ofChars? (cs : List Char) : Option NumberParts := do
  let (negative, cs) := match cs with
    | '-' :: r => (true, r)
    | r => (false, r)
  let whole := cs.takeWhile isDigit
  let rest := cs.dropWhile isDigit
  if whole.isEmpty || (whole.length > 1 && whole.head? == some '0') then none
  else
    match rest with
    | '.' :: r =>
      let fraction := r.takeWhile isDigit
      if fraction.isEmpty then none
      else (exponentPart? (r.dropWhile isDigit)).map (⟨negative, whole, fraction, ·⟩)
    | r => (exponentPart? r).map (⟨negative, whole, [], ·⟩)

end NumberParts

def significandLimit : Nat := twoTo 64 - 1

def exponentLimit : Nat := twoTo 31 - 1

/-- The significand so far, the power of ten that it is to be multiplied by, and whether a digit
has been left out. -/
structure Significand where
  value : Nat
  exponent : Int
  full : Bool
  deriving DecidableEq, Repr

namespace Significand

def pushWhole (s : Significand) (d : Nat) : Significand :=
  if s.full || significandLimit < s.value * 10 + d then ⟨s.value, s.exponent + 1, true⟩
  else ⟨s.value * 10 + d, 0, false⟩

def pushFraction (s : Significand) (d : Nat) : Significand :=
  if s.full || significandLimit < s.value * 10 + d then { s with full := true }
  else ⟨s.value * 10 + d, s.exponent - 1, false⟩

def digitsOf (cs : List Char) : List Nat := cs.filterMap (digitIn? 10)

def ofWhole (cs : List Char) : Significand :=
  (digitsOf cs).foldl pushWhole ⟨0, 0, false⟩

/-- Take in the fraction; its first digit is tried even after one that was left out. -/
def withFraction (s : Significand) (cs : List Char) : Significand :=
  (digitsOf cs).foldl pushFraction { s with full := false }

end Significand

def powerOfTen (n : Nat) : Binary64 :=
  (Binary64.round? false (tenTo n) 1).getD (Binary64.zero false)

/-- The product `x * 10 ^ e`; a power of ten that is out of range is applied in steps. -/
def scaleByTen? : Nat → Binary64 → Int → Option Binary64
  | 0, _, _ => none
  | fuel + 1, x, e =>
    if e.natAbs ≤ 308 then
      if 0 ≤ e then x.mul? (powerOfTen e.toNat) else x.div? (powerOfTen e.natAbs)
    else if x.mantissa = 0 then some x
    else if 0 ≤ e then none
    else (x.div? (powerOfTen 308)).bind (scaleByTen? fuel · (e + 308))

/-- The float of a significand; three steps take every significand to zero. -/
def floatOf? (negative : Bool) (s : Significand) : Option Number := do
  let x ← Binary64.round? false s.value 1
  let y ← scaleByTen? 4 x s.exponent
  some (.float { y with negative })

/-- The number that the parts describe; none if it is too great. -/
def NumberParts.value? (p : NumberParts) : Option Number :=
  let whole := Significand.ofWhole p.whole
  let s := if p.fraction.isEmpty then whole else whole.withFraction p.fraction
  match p.exponent with
  | some (negativeExponent, digits) =>
    let e := decimalValue digits
    if exponentLimit < e then
      if s.value ≠ 0 && !negativeExponent then none
      else some (.float (Binary64.zero p.negative))
    else
      let power : Int := if negativeExponent then -e else e
      floatOf? p.negative { s with exponent := s.exponent + power }
  | none =>
    if whole.full || !p.fraction.isEmpty then floatOf? p.negative s
    else if !p.negative then some (.integer s.value)
    else if s.value ≠ 0 && s.value ≤ twoTo 63 then some (.integer (-(s.value : Int)))
    else floatOf? true s

def number? (cs : List Char) : Option Number :=
  (NumberParts.ofChars? cs).bind (·.value?)

end ClassAnnotator.Json
