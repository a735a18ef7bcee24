/-! # Digits

The value of ASCII digits in bases up to sixteen.
-/

namespace ClassAnnotator.Text

def digitValue? (c : Char) : Option Nat :=
  let n := c.toNat
  if '0' ≤ c ∧ c ≤ '9' then some (n - 48)
  else if 'a' ≤ c ∧ c ≤ 'f' then some (n - 87)
  else if 'A' ≤ c ∧ c ≤ 'F' then some (n - 55)
  else none

def digitIn? (base : Nat) (c : Char) : Option Nat :=
  (digitValue? c).filter (· < base)

def isDigitIn (base : Nat) (c : Char) : Bool :=
  (digitIn? base c).isSome

/-- The number written by digits of the given base; none for an empty text. -/
def number? (base : Nat) (cs : List Char) : Option Nat :=
  if cs.isEmpty then none
  else cs.foldlM (fun n c => (digitIn? base c).map (n * base + ·)) 0

/-- The decimal number written by the digits of a text; other characters are passed over. -/
def decimalValue (cs : List Char) : Nat :=
  cs.foldl (fun n c => match digitIn? 10 c with
    | some d => n * 10 + d
    | none => n) 0

/-- The character with the given code point, unless it is a surrogate or too great. -/
def charOfCode? (n : Nat) : Option Char :=
  if n.isValidChar then some (Char.ofNat n) else none

end ClassAnnotator.Text
