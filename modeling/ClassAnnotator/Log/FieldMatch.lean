import ClassAnnotator.Pattern.Reader
import ClassAnnotator.Text.Case
import ClassAnnotator.Text.Split

/-! # What a directive asks of a field

A field is asked for by its name, or by its name and a value. Values are numbers or patterns.
-/

namespace ClassAnnotator.Log

structure FieldMatch where
  name : String
  /-- A value is asked for, too. -/
  hasValue : Bool
  deriving DecidableEq, Repr

namespace FieldMatch

/-- Digits with at most one point and perhaps an exponent. -/
def isDecimal (cs : List Char) : Bool :=
  let digits (cs : List Char) : List Char := cs.takeWhile Char.isDigit
  let after (cs : List Char) : List Char := cs.dropWhile Char.isDigit
  let whole := digits cs
  let (fraction, r) := match after cs with
    | '.' :: r => (digits r, after r)
    | r => ([], r)
  let exponent (r : List Char) : Bool := !r.isEmpty && r.all Char.isDigit
  !(whole ++ fraction).isEmpty &&
    match r with
    | [] => true
    | e :: '+' :: r => e.toLower == 'e' && exponent r
    | e :: '-' :: r => e.toLower == 'e' && exponent r
    | e :: r => e.toLower == 'e' && exponent r

/-- A number, perhaps with a sign; infinity and the value that is no number count as well. -/
def isNumber (cs : List Char) : Bool :=
  let r := match cs with
    | '+' :: r => r
    | '-' :: r => r
    | r => r
  isDecimal r || ["inf", "infinity", "nan"].any (Text.sameIgnoringCase (String.ofList r))

def isValue (cs : List Char) : Bool :=
  isNumber cs || (Pattern.read? cs).any Pattern.isUsable

/-- A name, perhaps with a value after `=`, which goes on to the next `=`. -/
def ofText? (s : String) : Option FieldMatch :=
  if s.isEmpty then none
  else
    match Text.splitFirst? '=' s.toList with
    | some (name, r) =>
      if isValue (r.takeWhile (· != '=')) then some ⟨String.ofList name, true⟩ else none
    | none => some ⟨s, false⟩

end FieldMatch

end ClassAnnotator.Log
