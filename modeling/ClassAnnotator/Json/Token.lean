import ClassAnnotator.Json.Number

/-! # Tokens of a JSON text

A text is cut into tokens by a machine that reads one character at a time.
-/

namespace ClassAnnotator.Json

open Text

inductive Token where
  | openTable
  | closeTable
  | openList
  | closeList
  | comma
  | colon
  | null
  | bool (b : Bool)
  | number (n : Number)
  | text (s : String)
  deriving DecidableEq, Repr

/-- Where in a token the machine is; characters read so far are in reverse order. -/
inductive LexState where
  | between
  | text (done : List Char)
  | escape (done : List Char)
  /-- Inside four hexadecimal digits, perhaps after the first half of a surrogate pair. -/
  | unit (done : List Char) (high : Option Nat) (missing : Nat) (value : Nat)
  | lowSlash (done : List Char) (high : Nat)
  | lowLetter (done : List Char) (high : Nat)
  | number (done : List Char)
  | word (done : List Char)

namespace LexState

def isSpace (c : Char) : Bool :=
  c == ' ' || c == '\t' || c == '\n' || c == '\r'

def punctuation? : Char → Option Token
  | '{' => some .openTable
  | '}' => some .closeTable
  | '[' => some .openList
  | ']' => some .closeList
  | ',' => some .comma
  | ':' => some .colon
  | _ => none

def start? (c : Char) : Option (List Token × LexState) :=
  if isSpace c then some ([], between)
  else if c == '"' then some ([], text [])
  else if isDigit c || c == '-' then some ([], number [c])
  else if c.isAlpha then some ([], word [c])
  else (punctuation? c).map fun t => ([t], between)

def isNumberChar (c : Char) : Bool :=
  isDigit c || c == '+' || c == '-' || c == '.' || c == 'e' || c == 'E'

def wordToken? (done : List Char) : Option Token :=
  match String.ofList done.reverse with
  | "null" => some .null
  | "true" => some (.bool true)
  | "false" => some (.bool false)
  | _ => none

def numberToken? (done : List Char) : Option Token :=
  (number? done.reverse).map Token.number

def escaped? : Char → Option Char
  | '"' => some '"'
  | '\\' => some '\\'
  | '/' => some '/'
  | 'b' => some '\x08'
  | 'f' => some '\x0c'
  | 'n' => some '\n'
  | 'r' => some '\r'
  | 't' => some '\t'
  | _ => none

/-- The state after the last of four hexadecimal digits. A code unit of a surrogate pair has to
stand in a pair. -/
def afterUnit? (done : List Char) (high : Option Nat) (value : Nat) : Option LexState :=
  match high with
  | some h =>
    if 0xDC00 ≤ value ∧ value < 0xE000 then
      let code := 0x10000 + (h - 0xD800) * 0x400 + (value - 0xDC00)
      (charOfCode? code).map fun c => text (c :: done)
    else none
  | none =>
    if 0xD800 ≤ value ∧ value < 0xDC00 then some (lowSlash done value)
    else (charOfCode? value).map fun c => text (c :: done)

/-- Read one character: the tokens that it ends, and the next state. -/
def step? (s : LexState) (c : Char) : Option (List Token × LexState) :=
  match s with
  | between => start? c
  | text done =>
    if c == '"' then some ([.text (String.ofList done.reverse)], between)
    else if c == '\\' then some ([], escape done)
    else if c.toNat < 0x20 then none
    else some ([], text (c :: done))
  | escape done =>
    if c == 'u' then some ([], unit done none 4 0)
    else (escaped? c).map fun d => ([], text (d :: done))
  | unit done high missing value => do
    let d ← digitIn? 16 c
    let value := value * 16 + d
    if missing ≤ 1 then (afterUnit? done high value).map (([], ·))
    else some ([], unit done high (missing - 1) value)
  | lowSlash done high => if c == '\\' then some ([], lowLetter done high) else none
  | lowLetter done high => if c == 'u' then some ([], unit done (some high) 4 0) else none
  | number done =>
    if isNumberChar c then some ([], number (c :: done))
    else do
      let t ← numberToken? done
      let (ts, next) ← start? c
      some (t :: ts, next)
  | word done =>
    if c.isAlpha then some ([], word (c :: done))
    else do
      let t ← wordToken? done
      let (ts, next) ← start? c
      some (t :: ts, next)

/-- The token that the end of the text ends; none inside a quoted text. -/
def finish? : LexState → Option (List Token)
  | between => some []
  | number done => (numberToken? done).map ([·])
  | word done => (wordToken? done).map ([·])
  | _ => none

/-- The tokens of the rest of a text, after those in `done`, which are in reverse order. -/
def run? (s : LexState) (done : List Token) : List Char → Option (List Token)
  | [] => s.finish?.map fun ts => done.reverse ++ ts
  | c :: r =>
    match s.step? c with
    | none => none
    | some (ts, next) => next.run? (ts.reverse ++ done) r

end LexState

def tokens? (cs : List Char) : Option (List Token) :=
  LexState.between.run? [] cs

end ClassAnnotator.Json
