import ClassAnnotator.Pattern.Basic
import ClassAnnotator.Text.Alphanumeric
import ClassAnnotator.Text.Blank
import ClassAnnotator.Text.Digits

/-! # Reading a pattern

Operators are one character each, and a backslash takes their meaning away. With the flag `x`,
blanks and comments between the parts are passed over. A number of repetitions between braces is
refused.
-/

namespace ClassAnnotator.Pattern

open Text

def dropSpace (inComment : Bool) : List Char → List Char
  | [] => []
  | c :: r =>
    if inComment then dropSpace (c != '\n') r
    else if c == '#' then dropSpace true r
    else if isBlank c then dropSpace false r
    else c :: r

def skipSpace (spaced : Bool) (cs : List Char) : List Char :=
  if spaced then dropSpace false cs else cs

/-! ## Escapes -/

/-- The number that `n` hexadecimal digits write after `value`. -/
def hexadecimal? (spaced : Bool) : Nat → Nat → List Char → Option (Nat × List Char)
  | 0, value, cs => some (value, cs)
  | n + 1, value, cs =>
    match skipSpace spaced cs with
    | [] => none
    | c :: r =>
      match digitIn? 16 c with
      | none => none
      | some d => hexadecimal? spaced n (value * 16 + d) r

/-- A character of ASCII that means itself after a backslash. -/
def isEscapable (c : Char) : Bool :=
  isAscii c && !c.isAlphanum && c != '<' && c != '>'

def isCategory (c : Char) : Bool := "CLMNPSZclmnpsz".toList.contains c

/-- What a letter or an angle means after a backslash. -/
def escapedAtom? : Char → Option Atom
  | 'a' => some (.char '\x07')
  | 'f' => some (.char '\x0c')
  | 'n' => some (.char '\n')
  | 'r' => some (.char '\r')
  | 't' => some (.char '\t')
  | 'v' => some (.char '\x0b')
  | 'A' => some .anchor
  | 'z' => some .anchor
  | 'b' => some .wordBoundary
  | 'B' => some .wordBoundary
  | '<' => some .wordBoundary
  | '>' => some .wordBoundary
  | 'd' => some (.shorthand false)
  | 's' => some (.shorthand false)
  | 'w' => some (.shorthand false)
  | 'D' => some (.shorthand true)
  | 'S' => some (.shorthand true)
  | 'W' => some (.shorthand true)
  | _ => none

/-- The number of digits after a letter that starts the code of a character. -/
def codeLength? : Char → Option Nat
  | 'x' => some 2
  | 'u' => some 4
  | 'U' => some 8
  | _ => none

def escape? (spaced : Bool) : List Char → Option (Atom × List Char)
  | [] => none
  | c :: r =>
    match codeLength? c with
    | some n => do
      let (code, r) ← hexadecimal? spaced n 0 r
      let d ← charOfCode? code
      some (if c == 'x' then .byte d else .char d, r)
    | none =>
      if c == 'p' || c == 'P' then
        match skipSpace spaced r with
        | [] => none
        | k :: r => if isCategory k then some (.category, r) else none
      else if isEscapable c then some (.char c, r)
      else (escapedAtom? c).map (·, r)

/-! ## Sets -/

def Atom.char? : Atom → Option Char
  | .char c => some c
  | .byte c => some c
  | _ => none

def Atom.set? : Atom → Option CharSet
  | .char c => some (.char c)
  | .byte c => some (.char c)
  | .shorthand negated => some (.shorthand negated)
  | .category => some .category
  | _ => none

def classNames : List String :=
  ["alnum", "alpha", "ascii", "blank", "cntrl", "digit", "graph", "lower", "print", "punct",
    "space", "upper", "word", "xdigit"]

/-- A class with a name, after its opening bracket: whether it is negated, and the rest. -/
def namedClass? : List Char → Option (Bool × List Char)
  | ':' :: r =>
    let negated := r.head? == some '^'
    let r := if negated then r.tail else r
    match r.dropWhile (· != ':') with
    | ':' :: ']' :: rest =>
      if classNames.contains (String.ofList (r.takeWhile (· != ':'))) then some (negated, rest)
      else none
    | _ => none
  | _ => none

def setAtom? (spaced : Bool) : List Char → Option (Atom × List Char)
  | [] => none
  | '\\' :: r => escape? spaced r
  | c :: r => some (.char c, r)

/-- The next character after blanks. The first character of a comment counts as well. -/
def peek? (spaced : Bool) (cs : List Char) : Option Char :=
  if spaced then
    match cs.dropWhile isBlank with
    | '#' :: r => (r.dropWhile isBlank).head?
    | r => r.head?
  else cs.head?

/-- An atom in a set or a range. A hyphen in front of another one or of the end of the set makes no
range. -/
def setItem? (spaced : Bool) (cs : List Char) : Option (CharSet × List Char) := do
  let (first, r) ← setAtom? spaced cs
  let r := skipSpace spaced r
  match r with
  | '-' :: more =>
    let next := peek? spaced more
    if next == some ']' || next == some '-' then (first.set?).map (·, r)
    else do
      let (last, r) ← setAtom? spaced (skipSpace spaced more)
      let a ← first.char?
      let b ← last.char?
      if a ≤ b then some (.range a b, r) else none
  | r => (first.set?).map (·, r)

def combine (left : Option CharSet) (s : CharSet) : CharSet :=
  match left with
  | none => s
  | some l => .operation l s

mutual

def set? (fuel : Nat) (spaced : Bool) (cs : List Char) : Option (CharSet × List Char) :=
  match fuel with
  | 0 => none
  | fuel + 1 =>
    let cs := skipSpace spaced cs
    let negated := cs.head? == some '^'
    (setItems? fuel spaced true none [] (if negated then cs.tail else cs)).map fun (s, r) =>
      (.bracketed negated s, r)

/-- The items of a set to its closing bracket, after an operation with `left` and the items in
`done`, which are in reverse order. At the start, hyphens are characters, and so is a closing
bracket. -/
def setItems? (fuel : Nat) (spaced start : Bool) (left : Option CharSet) (done : List CharSet)
    (cs : List Char) : Option (CharSet × List Char) :=
  match fuel with
  | 0 => none
  | fuel + 1 =>
    let content := combine left (.ofItems done.reverse)
    let more (s : CharSet) (r : List Char) : Option (CharSet × List Char) :=
      setItems? fuel spaced false left (s :: done) r
    let operate (r : List Char) : Option (CharSet × List Char) :=
      setItems? fuel spaced false (some content) [] r
    let cs := skipSpace spaced cs
    match cs with
    | [] => none
    | '[' :: r =>
      match namedClass? r with
      | some (negated, r) => more (.named negated) r
      | none =>
        match set? fuel spaced r with
        | none => none
        | some (s, r) => more s r
    | ']' :: r => if start && done.isEmpty then more (.char ']') r else some (content, r)
    | '&' :: '&' :: r => operate r
    | '~' :: '~' :: r => operate r
    | cs =>
      match start, cs with
      | true, '-' :: r => setItems? fuel spaced true left (.char '-' :: done) r
      | false, '-' :: '-' :: r => operate r
      | _, cs =>
        match setItem? spaced cs with
        | none => none
        | some (s, r) => more s r

end

/-! ## Groups -/

structure Place where
  rest : List Char
  /-- Blanks and comments are passed over. -/
  spaced : Bool
  /-- The names of the groups so far. -/
  names : List (List Char)

inductive Opening where
  | flags (mode : Option Mode)
  | group (mode : Option Mode)

/-- Known flags, none of them twice, and perhaps a hyphen, which is not the last one. -/
def areFlags (cs : List Char) : Bool :=
  cs.all "imsUuRx-".toList.contains && decide cs.Nodup && cs.getLast? != some '-'

/-- What the flags say about one of them: those after a hyphen are switched off. -/
def flag? (f : Char) (cs : List Char) : Option Bool :=
  if cs.contains f then some ((cs.takeWhile (· != '-')).contains f) else none

/-- The mode that the flags switch to. -/
def flagMode? (cs : List Char) : Option Mode :=
  (flag? 'u' cs).map fun on => if on then .unicode else .bytes

def flags? (p : Place) : Option (Opening × Place) :=
  let isEnd (c : Char) : Bool := c == ':' || c == ')'
  let cs := p.rest.takeWhile (!isEnd ·)
  let q := { p with spaced := (flag? 'x' cs).getD p.spaced }
  if !areFlags cs then none
  else
    match p.rest.dropWhile (!isEnd ·) with
    | ':' :: r => some (.group (flagMode? cs), { q with rest := r })
    | ')' :: r => if cs.isEmpty then none else some (.flags (flagMode? cs), { q with rest := r })
    | _ => none

/-- A letter or an underscore, and then also digits, points and brackets. -/
def isGroupName : List Char → Bool
  | [] => false
  | c :: r =>
    (c == '_' || isAlphabetic c) &&
      r.all fun d => d == '_' || d == '.' || d == '[' || d == ']' || isAlphanumeric d

/-- The name of a group, which no group before it has. -/
def groupName? (p : Place) : Option (Opening × Place) :=
  let name := p.rest.takeWhile (· != '>')
  match p.rest.dropWhile (· != '>') with
  | '>' :: r =>
    if isGroupName name && !p.names.contains name then
      some (.group none, { p with rest := r, names := name :: p.names })
    else none
  | _ => none

/-- What follows an opening parenthesis. A group cannot look ahead or behind. -/
def opening? (p : Place) : Option (Opening × Place) :=
  match skipSpace p.spaced p.rest with
  | '?' :: '<' :: '=' :: _ => none
  | '?' :: '<' :: '!' :: _ => none
  | '?' :: 'P' :: '<' :: r => groupName? { p with rest := r }
  | '?' :: '<' :: r => groupName? { p with rest := r }
  | '?' :: r => flags? { p with rest := r }
  | r => some (.group none, { p with rest := r })

/-- The last part is repeated; flags cannot be. -/
def repeatLast? : List Pattern → Option (List Pattern)
  | [] => none
  | .flags _ :: _ => none
  | p :: done => some (.repeated p :: done)

def dropLazy : List Char → List Char
  | '?' :: r => r
  | r => r

def plainAtom (c : Char) : Atom :=
  if c == '.' then .any
  else if c == '^' || c == '$' then .anchor
  else .char c

/-- A group to its end. The alternatives in `arms` and the parts in `done` come before; both are in
reverse order. -/
def group? (fuel : Nat) (arms done : List Pattern) (p : Place) : Option (Pattern × Place) :=
  match fuel with
  | 0 => none
  | fuel + 1 =>
    let arm := ofParts done.reverse
    match skipSpace p.spaced p.rest with
    | [] => some (ofArms (arm :: arms).reverse, { p with rest := [] })
    | ')' :: r => some (ofArms (arm :: arms).reverse, { p with rest := ')' :: r })
    | '|' :: r => group? fuel (arm :: arms) [] { p with rest := r }
    | '(' :: r =>
      match opening? { p with rest := r } with
      | none => none
      | some (.flags mode, q) => group? fuel arms (.flags mode :: done) q
      | some (.group mode, q) =>
        match group? fuel [] [] q with
        | some (inner, ⟨')' :: r, _, names⟩) =>
          group? fuel arms (.group mode inner :: done) ⟨r, p.spaced, names⟩
        | _ => none
    | '[' :: r =>
      match set? (2 * r.length + 2) p.spaced r with
      | none => none
      | some (s, r) => group? fuel arms (.set s :: done) { p with rest := r }
    | '{' :: _ => none
    | '\\' :: r =>
      match escape? p.spaced r with
      | none => none
      | some (a, r) => group? fuel arms (.atom a :: done) { p with rest := r }
    | c :: r =>
      if c == '?' || c == '*' || c == '+' then
        match repeatLast? done with
        | none => none
        | some done => group? fuel arms done { p with rest := dropLazy r }
      else group? fuel arms (.atom (plainAtom c) :: done) { p with rest := r }

def read? (cs : List Char) : Option Pattern :=
  match group? (cs.length + 1) [] [] ⟨cs, false, []⟩ with
  | some (p, ⟨[], _, _⟩) => some p
  | _ => none

end ClassAnnotator.Pattern
