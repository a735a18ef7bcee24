import ClassAnnotator.Text.Digits
import ClassAnnotator.Yaml.Gap

/-! # Scalars in YAML

Plain and quoted scalars fold their lines; block scalars keep them or fold them. Each function
starts at the first character of the scalar and gives its text and the place after it.
-/

namespace ClassAnnotator.Yaml

open Text

/-! ## Quoted scalars -/

/-- An escape in a double-quoted scalar: what it stands for, and the number of digits that follow
if it is written by its code. -/
def escaped? : Char → Option (Char ⊕ Nat)
  | '0' => some (.inl '\x00')
  | 'a' => some (.inl '\x07')
  | 'b' => some (.inl '\x08')
  | 't' => some (.inl '\t')
  | '\t' => some (.inl '\t')
  | 'n' => some (.inl '\n')
  | 'v' => some (.inl '\x0b')
  | 'f' => some (.inl '\x0c')
  | 'r' => some (.inl '\r')
  | 'e' => some (.inl '\x1b')
  | ' ' => some (.inl ' ')
  | '"' => some (.inl '"')
  | '/' => some (.inl '/')
  | '\\' => some (.inl '\\')
  | 'N' => some (.inl '\x85')
  | '_' => some (.inl '\xa0')
  | 'L' => some (.inl '\u2028')
  | 'P' => some (.inl '\u2029')
  | 'x' => some (.inr 2)
  | 'u' => some (.inr 4)
  | 'U' => some (.inr 8)
  | _ => none

def escape? (p : Cursor) : Option (Char × Cursor) := do
  let kind ← p.rest.head?.bind escaped?
  let p := p.next
  match kind with
  | .inl c => some (c, p)
  | .inr n =>
    let digits := p.rest.take n
    let c ← if digits.length = n then (number? 16 digits).bind charOfCode? else none
    some (c, p.skip n)

/-- The rest of a quoted scalar; `done` is in reverse order. -/
def quotedFrom? (quote : Char) : Nat → List Char → Cursor → Option (List Char × Cursor)
  | 0, _, _ => none
  | fuel + 1, done, p =>
    if p.atDocumentMarker then none
    else
      match p.rest with
      | [] => none
      | c :: r =>
        if c == quote then
          if quote == '\'' && r.head? == some '\'' then
            quotedFrom? quote fuel ('\'' :: done) (p.skip 2)
          else some (done.reverse, p.next)
        else if isBlank c || isBreak c then do
          let (g, p) ← Gap.read? none p.rest.length .none p
          quotedFrom? quote fuel (g.text.reverse ++ done) p
        else if c == '\\' && quote == '"' then
          if (r.head?.map isBreak).getD false then do
            let (g, p) ← Gap.read? none p.rest.length .escaped (p.skip 2)
            quotedFrom? quote fuel (g.text.reverse ++ done) p
          else do
            let (d, p) ← escape? p.next
            quotedFrom? quote fuel (d :: done) p
        else quotedFrom? quote fuel (c :: done) p.next

def quoted? (quote : Char) (p : Cursor) : Option (List Char × Cursor) :=
  quotedFrom? quote p.rest.length [] p.next

/-! ## Plain scalars -/

/-- Where plain scalars stand: inside brackets, or in a block whose text is indented. -/
structure PlainContext where
  inFlow : Bool
  /-- The least column of text. -/
  least : Nat
  deriving Repr

def isFlowEnd (c : Char) : Bool :=
  c == ',' || c == '[' || c == ']' || c == '{' || c == '}'

/-- A colon that may stand neither inside nor after a plain scalar in brackets. -/
def isBadColon (context : PlainContext) (c : Char) (r : List Char) : Bool :=
  context.inFlow && c == ':' && ((r.head?.map fun d => isFlowEnd d || d == '?').getD false)

def endsPlain (context : PlainContext) (c : Char) (r : List Char) : Bool :=
  (c == ':' && atSpace r) || (context.inFlow && isFlowEnd c)

/-- The rest of a plain scalar after the gap `g`, and whether it ends after a line break. -/
def plainFrom? (context : PlainContext) :
    Nat → List Char → Option Gap → Cursor → Option (List Char × Bool × Cursor)
  | 0, _, _, _ => none
  | fuel + 1, done, g, p =>
    let gap := g.getD .none
    let finish := some (done.reverse, gap.broken, p)
    match p.rest with
    | [] => finish
    | c :: r =>
      if g.isSome && (p.atDocumentMarker || c == '#') then finish
      else if isBlank c || isBreak c then do
        let (new, p) ← Gap.read? (some context.least) p.rest.length .none p
        if !context.inFlow && p.column < context.least then some (done.reverse, new.broken, p)
        else plainFrom? context fuel done (some new) p
      else if isBadColon context c r then none
      else if endsPlain context c r then finish
      else plainFrom? context fuel (c :: gap.text.reverse ++ done) none p.next

def plain? (context : PlainContext) (p : Cursor) : Option (List Char × Bool × Cursor) :=
  plainFrom? context (2 * p.rest.length + 2) [] none p

/-! ## Block scalars -/

inductive Chomping where
  | strip
  | clip
  | keep
  deriving DecidableEq, Repr

structure BlockHeader where
  chomping : Chomping
  /-- The indentation relative to the block around it. -/
  increment : Option Nat
  deriving Repr

def chomping? (p : Cursor) : Option (Chomping × Cursor) :=
  match p.rest with
  | '+' :: _ => some (.keep, p.next)
  | '-' :: _ => some (.strip, p.next)
  | _ => none

/-- An indentation indicator, if there is one; zero is refused. -/
def increment? (p : Cursor) : Option (Option Nat × Cursor) :=
  match p.rest with
  | [] => some (none, p)
  | c :: _ =>
    match digitIn? 10 c with
    | none => some (none, p)
    | some 0 => none
    | some n => some (some n, p.next)

/-- The indicators after the first character of a block scalar, in either order. -/
def blockHeader? (p : Cursor) : Option (BlockHeader × Cursor) :=
  match chomping? p with
  | some (chomping, p) => (increment? p).map fun (increment, p) => (⟨chomping, increment⟩, p)
  | none => do
    let (increment, p) ← increment? p
    match increment, chomping? p with
    | some n, some (chomping, p) => some (⟨chomping, some n⟩, p)
    | increment, _ => some (⟨.clip, increment⟩, p)

/-- Blank lines in front of a line of text: the line breaks, the greatest column, and the place of
the text. Without an indentation, all blanks are passed over. -/
def blankLines? (indent : Option Nat) :
    Nat → List Char → Nat → Cursor → Option (List Char × Nat × Cursor)
  | 0, _, _, _ => none
  | fuel + 1, breaks, widest, p =>
    let inside (column : Nat) : Bool := match indent with
      | none => true
      | some n => column < n
    let spaces := (p.rest.takeWhile (· == ' ')).length
    let p := p.skip (match indent with
      | none => spaces
      | some n => min spaces (n - p.column))
    let widest := max widest p.column
    match p.rest with
    | [] => some (breaks, widest, p)
    | c :: _ =>
      if c == '\t' && inside p.column then none
      else if isBreak c then blankLines? indent fuel (breaks ++ [c]) widest p.next
      else some (breaks, widest, p)

structure BlockState where
  /-- The text so far, in reverse order. -/
  done : List Char
  /-- The line break after the last line of text. -/
  last : List Char
  /-- The line breaks of the blank lines after it. -/
  blanks : List Char
  /-- The last line of text starts with a blank. -/
  indented : Bool

/-- The lines of a block scalar, each at column `indent`. -/
def blockLines? (literal : Bool) (indent : Nat) :
    Nat → BlockState → Cursor → Option (BlockState × Cursor)
  | 0, _, _ => none
  | fuel + 1, s, p =>
    match p.rest with
    | [] => some (s, p)
    | c :: _ =>
      if p.column != indent then some (s, p)
      else
        let indented := isBlank c
        let join :=
          if !literal && s.last.head? == some '\n' && !s.indented && !indented then
            if s.blanks.isEmpty then [' '] else s.blanks
          else s.last ++ s.blanks
        let text := p.taken (!isBreak ·)
        let p := p.skip text.length
        let last := p.rest.take 1
        let p := p.next
        match blankLines? (some indent) (p.rest.length + 1) [] 0 p with
        | none => none
        | some (blanks, _, p) =>
          let done := text.reverse ++ join.reverse ++ s.done
          blockLines? literal indent fuel ⟨done, last, blanks, indented⟩ p

/-- A block scalar in a block at column `around`, which is -1 outside of all blocks. -/
def block? (literal : Bool) (around : Int) (p : Cursor) : Option (List Char × Cursor) := do
  let (header, p) ← blockHeader? p.next
  let p ← p.endLine?
  let given := header.increment.map fun n => if 0 ≤ around then around.toNat + n else n
  let (blanks, widest, p) ← blankLines? given (p.rest.length + 1) [] 0 p
  let indent := given.getD (max widest (max (around + 1).toNat 1))
  let (s, p) ← blockLines? literal indent (p.rest.length + 1) ⟨[], [], blanks, false⟩ p
  let tail := match header.chomping with
    | .strip => []
    | .clip => s.last
    | .keep => s.last ++ s.blanks
  some (s.done.reverse ++ tail, p)

end ClassAnnotator.Yaml
