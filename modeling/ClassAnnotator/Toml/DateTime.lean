import ClassAnnotator.Text.Digits

/-! # Dates and times in TOML

A date, a time, or both; with both there may be an offset. They are kept as texts in one form: a
`T` between date and time, `Z` in upper case, and at most nine digits of a second without zeros at
the end.
-/

namespace ClassAnnotator.Toml

open Text

/-- A part of the form that has been read, and the rest. -/
abbrev Part := Option (List Char × List Char)

/-- Exactly `n` digits, and their value. -/
def digits? (n : Nat) (cs : List Char) : Option (List Char × Nat × List Char) :=
  let ds := cs.takeWhile (isDigitIn 10)
  if ds.length = n then some (ds, decimalValue ds, cs.drop n) else none

def isLeapYear (y : Nat) : Bool := y % 4 = 0 && (y % 100 ≠ 0 || y % 400 = 0)

def daysIn (year month : Nat) : Nat :=
  if month = 2 then (if isLeapYear year then 29 else 28)
  else if [4, 6, 9, 11].contains month then 30
  else 31

def date? (cs : List Char) : Part := do
  let (y, year, r) ← digits? 4 cs
  let '-' :: r := r | none
  let (m, month, r) ← digits? 2 r
  let '-' :: r := r | none
  let (d, day, r) ← digits? 2 r
  if 1 ≤ month ∧ month ≤ 12 ∧ 1 ≤ day ∧ day ≤ daysIn year month then
    some (y ++ '-' :: m ++ '-' :: d, r)
  else none

def dropZeros (ds : List Char) : List Char :=
  match (ds.reverse.dropWhile (· == '0')).reverse with
  | [] => ['0']
  | rest => rest

def fraction? : List Char → Part
  | '.' :: r =>
    let ds := r.takeWhile (isDigitIn 10)
    if ds.isEmpty then none else some ('.' :: dropZeros (ds.take 9), r.dropWhile (isDigitIn 10))
  | r => some ([], r)

/-- The seconds, which may be left out. -/
def seconds? : List Char → Part
  | ':' :: r => do
    let (s, second, r) ← digits? 2 r
    let (f, r) ← fraction? r
    if second ≤ 60 then some (':' :: s ++ f, r) else none
  | r => some ([], r)

def time? (cs : List Char) : Part := do
  let (h, hour, r) ← digits? 2 cs
  let ':' :: r := r | none
  let (m, minute, r) ← digits? 2 r
  let (s, r) ← seconds? r
  if hour ≤ 23 ∧ minute ≤ 59 then some (h ++ ':' :: m ++ s, r) else none

/-- The sign of an offset in its kept form: an offset of nothing is positive. -/
def offsetSign (sign : Char) (hours minutes : Nat) : Char :=
  if hours = 0 ∧ minutes = 0 then '+' else sign

def offset? : List Char → Part
  | [] => some ([], [])
  | c :: r =>
    if c == 'Z' || c == 'z' then some (['Z'], r)
    else if c == '+' || c == '-' then do
      let (h, hours, r) ← digits? 2 r
      let ':' :: r := r | none
      let (m, minutes, r) ← digits? 2 r
      if hours ≤ 23 ∧ minutes ≤ 59 then
        some (offsetSign c hours minutes :: h ++ ':' :: m, r)
      else none
    else none

/-- What may follow a date: nothing, or a time with an offset. -/
def afterDate? : List Char → Part
  | [] => some ([], [])
  | c :: r =>
    if c == 'T' || c == 't' || c == ' ' then do
      let (t, r) ← time? r
      let (o, r) ← offset? r
      some ('T' :: t ++ o, r)
    else none

/-- The kept form of a date or time. -/
def dateTime? (cs : List Char) : Option String :=
  let whole : Part := match date? cs with
    | some (d, r) => (afterDate? r).map fun (t, r) => (d ++ t, r)
    | none => time? cs
  match whole with
  | some (text, []) => some (String.ofList text)
  | _ => none

end ClassAnnotator.Toml
