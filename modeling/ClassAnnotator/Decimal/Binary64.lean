/-! # Finite binary64 numbers in exact arithmetic

A number is a sign, a mantissa below `2 ^ 53` and a power of two, with the greatest mantissa that
the exponent range allows. `round?` finds the number nearest to a ratio, and the even one of two
that are equally near.
-/

namespace ClassAnnotator

def twoTo (n : Nat) : Nat := Nat.pow 2 n

def tenTo (n : Nat) : Nat := Nat.pow 10 n

/-- The number `± mantissa * 2 ^ exponent`. -/
structure Binary64 where
  negative : Bool
  mantissa : Nat
  exponent : Int
  deriving DecidableEq, Repr

namespace Binary64

def leastExponent : Int := -1074

def greatestExponent : Int := 971

def zero (negative : Bool) : Binary64 := ⟨negative, 0, leastExponent⟩

/-- The ratio `n * 2 ^ e / d` as a numerator and a denominator. -/
def scaled (n d : Nat) (e : Int) : Nat × Nat :=
  if 0 ≤ e then (n * twoTo e.toNat, d) else (n, d * twoTo (-e).toNat)

/-- The greatest `e` with `2 ^ e ≤ n / d`, for positive `n` and `d`. -/
def floorLog (n d : Nat) : Int :=
  let e : Int := n.log2 - d.log2
  let (a, b) := scaled n d (-e)
  if b ≤ a then e else e - 1

/-- The ratio `n / d` rounded to an integer, a half to the even neighbour. -/
def divideToEven (n d : Nat) : Nat :=
  let q := n / d
  let r := n % d
  if 2 * r < d then q
  else if d < 2 * r then q + 1
  else if q % 2 = 0 then q else q + 1

/-- The number nearest to `n / d`; none if that is beyond the greatest number. -/
def round? (negative : Bool) (n d : Nat) : Option Binary64 :=
  if n = 0 then some (zero negative)
  else
    let e := max (floorLog n d - 52) leastExponent
    let (a, b) := scaled n d (-e)
    let m := divideToEven a b
    let (m, e) := if m = twoTo 53 then (twoTo 52, e + 1) else (m, e)
    if greatestExponent < e then none else some ⟨negative, m, e⟩

/-- The number nearest to `± digits * 10 ^ exponent`. The magnitude is tested first, so that a
great exponent costs nothing. -/
def ofDecimal? (negative : Bool) (digits : Nat) (exponent : Int) : Option Binary64 :=
  let size : Int := (Nat.toDigits 10 digits).length
  if digits = 0 then some (zero negative)
  else if 400 < size + exponent then none
  else if size + exponent < -400 then some (zero negative)
  else if 0 ≤ exponent then round? negative (digits * tenTo exponent.toNat) 1
  else round? negative digits (tenTo (-exponent).toNat)

def magnitude (x : Binary64) : Nat × Nat :=
  scaled x.mantissa 1 x.exponent

def mul? (x y : Binary64) : Option Binary64 :=
  let (a, b) := x.magnitude
  let (c, d) := y.magnitude
  round? (x.negative != y.negative) (a * c) (b * d)

def div? (x y : Binary64) : Option Binary64 :=
  let (a, b) := x.magnitude
  let (c, d) := y.magnitude
  round? (x.negative != y.negative) (a * d) (b * c)

def neg (x : Binary64) : Binary64 := { x with negative := !x.negative }

end Binary64

end ClassAnnotator
