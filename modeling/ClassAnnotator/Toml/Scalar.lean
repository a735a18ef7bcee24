import ClassAnnotator.Document.Basic
import ClassAnnotator.Text.Split
import ClassAnnotator.Toml.DateTime

/-! # Unquoted values in TOML

Booleans, integers of 64 bits, floats, dates and times. Infinities and values that are no number
are read as null.
-/

namespace ClassAnnotator.Toml

open Text

/-- The digits of a number without the underscores, each of which stands between two digits. -/
def digitRun? (base : Nat) : List Char → Option (List Char)
  | [] => none
  | [c] => if isDigitIn base c then some [c] else none
  | c :: '_' :: r => if isDigitIn base c then (digitRun? base r).map (c :: ·) else none
  | c :: r => if isDigitIn base c then (digitRun? base r).map (c :: ·) else none

/-- The digits of a decimal integer: no zero in front of others. -/
def wholeRun? (cs : List Char) : Option (List Char) :=
  (digitRun? 10 cs).filter fun ds => ds.length = 1 || ds.head? != some '0'

def sign : List Char → Bool × List Char
  | '-' :: r => (true, r)
  | '+' :: r => (false, r)
  | r => (false, r)

def integer64? (negative : Bool) (n : Nat) : Option Document :=
  let i : Int := if negative then -n else n
  if -(twoTo 63 : Int) ≤ i ∧ i < twoTo 63 then some (.number (.integer i)) else none

def integer? (cs : List Char) : Option Document :=
  match cs with
  | '0' :: 'x' :: r => (digitRun? 16 r).bind (number? 16) |>.bind (integer64? false)
  | '0' :: 'o' :: r => (digitRun? 8 r).bind (number? 8) |>.bind (integer64? false)
  | '0' :: 'b' :: r => (digitRun? 2 r).bind (number? 2) |>.bind (integer64? false)
  | cs =>
    let (negative, r) := sign cs
    (wholeRun? r).bind fun ds => integer64? negative (decimalValue ds)

def exponent? (cs : List Char) : Option Int :=
  let (negative, r) := sign cs
  (digitRun? 10 r).map fun ds => if negative then -(decimalValue ds : Int) else decimalValue ds

/-- A float: a fraction or an exponent follows the integer part. -/
def float? (cs : List Char) : Option Document := do
  let (negative, r) := sign cs
  let isMark (c : Char) : Bool := c == 'e' || c == 'E'
  let mantissa := r.takeWhile (!isMark ·)
  let e ← match r.dropWhile (!isMark ·) with
    | [] => some 0
    | _ :: r => exponent? r
  let (whole, fraction) ← match splitFirst? '.' mantissa with
    | some (w, f) => do some ((← wholeRun? w), (← digitRun? 10 f))
    | none => if r.any isMark then (wholeRun? mantissa).map (·, []) else none
  let x ← Binary64.ofDecimal? negative (decimalValue (whole ++ fraction)) (e - fraction.length)
  some (.number (.float x))

/-- Infinities and the value that is no number, perhaps with a sign. -/
def isUnwritable (cs : List Char) : Bool :=
  let r := String.ofList (sign cs).2
  r == "inf" || r == "nan"

/-- The one member of the table that stands for a date or time. -/
def dateTimeName : String := "$__toml_private_datetime"

def dateTimeDocument (text : String) : Document :=
  .table [(dateTimeName, .text text)]

def scalar? (cs : List Char) : Option Document :=
  if cs == "true".toList then some (.bool true)
  else if cs == "false".toList then some (.bool false)
  else if isUnwritable cs then some .null
  else
    match integer? cs with
    | some d => some d
    | none =>
      match float? cs with
      | some d => some d
      | none => (dateTime? cs).map dateTimeDocument

end ClassAnnotator.Toml
