import ClassAnnotator.Decimal.Binary64

/-! # The fewest digits that read back

The numbers that round to a positive binary64 number form an interval around it, which holds its
ends if the mantissa is even. For one digit, two digits and so on, the two neighbours of the
number on that decimal grid are tested; the first grid with a point in the interval wins, and of
two points the nearer one.
-/

namespace ClassAnnotator

/-- The number `digits * 10 ^ exponent`. -/
structure DecimalDigits where
  digits : Nat
  exponent : Int
  deriving DecidableEq, Repr

namespace DecimalDigits

def ratio (x : DecimalDigits) : Nat × Nat :=
  if 0 ≤ x.exponent then (x.digits * tenTo x.exponent.toNat, 1)
  else (x.digits, tenTo (-x.exponent).toNat)

/-- Move the zeros at the end of the digits into the exponent; `fuel` bounds their number. -/
def dropZeros : Nat → DecimalDigits → DecimalDigits
  | 0, x => x
  | fuel + 1, x =>
    if x.digits ≠ 0 ∧ x.digits % 10 = 0 then dropZeros fuel ⟨x.digits / 10, x.exponent + 1⟩ else x

end DecimalDigits

namespace Binary64

/-- The distances from `x` to the ends of its interval, below and above, in quarters of the last
mantissa place. -/
def gaps (x : Binary64) : Nat × Nat :=
  if x.mantissa = twoTo 52 ∧ leastExponent < x.exponent then (1, 2) else (2, 2)

/-- The ratio `n / d` rounds to the magnitude of `x`. -/
def readsBack (x : Binary64) (n d : Nat) : Bool :=
  let (below, above) := x.gaps
  let (a, b) := scaled n d (2 - x.exponent)
  let low := (4 * x.mantissa - below) * b
  let high := (4 * x.mantissa + above) * b
  if x.mantissa % 2 = 0 then low ≤ a && a ≤ high else low < a && a < high

/-- The greatest `p` with `10 ^ p ≤ n / d`, for positive `n` and `d`. -/
def decimalFloorLog (n d : Nat) : Int :=
  if d ≤ n then (Nat.toDigits 10 (n / d)).length - 1
  else
    let places := ((List.range 400).find? fun j => d ≤ n * tenTo j).getD 400
    Int.neg places

/-- The point nearest to `n / d` of the two neighbours of `n / d` on the grid `10 ^ k` that read
back as `x`. -/
def gridPoint? (x : Binary64) (n d : Nat) (k : Int) : Option DecimalDigits :=
  let (a, b) := if 0 ≤ k then (n, d * tenTo k.toNat) else (n * tenTo (-k).toNat, d)
  let low := a / b
  let test (digits : Nat) : Bool :=
    let (u, v) := DecimalDigits.ratio ⟨digits, k⟩
    x.readsBack u v
  let r := 2 * (a % b)
  let near := if r < b ∨ (r = b ∧ low % 2 = 0) then [low, low + 1] else [low + 1, low]
  (near.find? test).map fun digits => ⟨digits, k⟩

/-- The fewest digits that read back as the magnitude of `x`, without zeros at the end. -/
def shortest (x : Binary64) : DecimalDigits :=
  if x.mantissa = 0 then ⟨0, 0⟩
  else
    let (n, d) := x.magnitude
    let p := decimalFloorLog n d
    let found := (List.range 17).findSome? fun (i : Nat) => x.gridPoint? n d (p - (i : Int))
    (found.getD ⟨0, 0⟩).dropZeros 20

end Binary64

end ClassAnnotator
