import ClassAnnotator.Yaml.Scalar
import ClassAnnotator.Yaml.Tag

/-! # Tokens of a YAML text

Indentation is turned into tokens that start and end blocks. A key is known as such only when its
colon comes, so places where a key could have started are remembered, and the tokens that announce
it are put there afterwards.
-/

namespace ClassAnnotator.Yaml

open Text

inductive Token where
  | version (major minor : Nat)
  | tagDirective (handle : List Char) (lead : TagText)
  | documentStart
  | documentEnd
  | blockListStart
  | blockTableStart
  | blockEnd
  | flowListStart
  | flowListEnd
  | flowTableStart
  | flowTableEnd
  | flowEntry
  | blockEntry
  | key
  | value
  | aliasOf (name : String)
  | anchor (name : String)
  | tag (t : Tag)
  | scalar (text : String) (plain : Bool)
  deriving DecidableEq, Repr

structure KeyPlace where
  /-- The number of tokens before it. -/
  before : Nat
  index : Nat
  line : Nat
  column : Nat
  /-- Something at this place must be a key. -/
  required : Bool
  deriving Repr

structure Lexer where
  place : Cursor
  tokens : Array Token
  /-- The column of the innermost block, or -1. -/
  indent : Int
  /-- The columns of the blocks around it. -/
  outer : List Int
  /-- For the text outside of brackets and for each open bracket, the innermost first, the place
  where a key may have started. -/
  keys : List (Option KeyPlace)
  /-- A key may start here. -/
  keyAllowed : Bool

namespace Lexer

def start (cs : List Char) : Lexer :=
  ⟨.ofText cs, #[], -1, [], [none], true⟩

def inFlow (s : Lexer) : Bool := 1 < s.keys.length

def column (s : Lexer) : Int := s.place.column

def push (s : Lexer) (t : Token) : Lexer := { s with tokens := s.tokens.push t }

def insertAt (s : Lexer) (n : Nat) (t : Token) : Lexer :=
  { s with tokens := s.tokens.insertIdxIfInBounds n t }

/-- Push a token and go past its characters. -/
def pushAfter (s : Lexer) (width : Nat) (t : Token) : Lexer :=
  { s with place := s.place.skip width }.push t

def setKey (s : Lexer) (k : Option KeyPlace) : Lexer :=
  { s with keys := match s.keys with
    | [] => [k]
    | _ :: r => k :: r }

def currentKey (s : Lexer) : Option KeyPlace := s.keys.head?.join

/-- Forget the place where a key may have started; a required key is missed. -/
def dropKey? (s : Lexer) : Option Lexer :=
  match s.currentKey with
  | some k => if k.required then none else some (s.setKey none)
  | none => some s

/-- Remember that a key may start here. -/
def saveKey? (s : Lexer) : Option Lexer :=
  if s.keyAllowed then
    let required := !s.inFlow && s.indent == s.column
    s.dropKey?.map fun t =>
      t.setKey (some ⟨s.tokens.size, s.place.index, s.place.line, s.place.column, required⟩)
  else some s

/-- The greatest number of bytes of a key that is not announced. -/
def keyLimit : Nat := 1024

/-- A key ends on the line on which it starts, and is short. -/
def isStale (p : Cursor) (k : KeyPlace) : Bool :=
  k.line < p.line || k.index + keyLimit < p.index

def dropStale? (s : Lexer) : Option Lexer :=
  let stale (k : Option KeyPlace) : Bool := (k.map (isStale s.place)).getD false
  if s.keys.any fun k => stale k && (k.map (·.required)).getD false then none
  else some { s with keys := s.keys.map fun k => if stale k then none else k }

/-- Open a block at a column that is further right than the current block. -/
def openBlock (s : Lexer) (column : Int) (start : Token) (before : Nat) : Lexer :=
  if !s.inFlow && s.indent < column then
    { s with outer := s.indent :: s.outer, indent := column }.insertAt before start
  else s

/-- Close the blocks in `outer` that are further right than the column. -/
def closeFrom (column : Int) (s : Lexer) : List Int → Lexer
  | [] => s
  | o :: rest =>
    if column < s.indent then
      closeFrom column ({ s with indent := o, outer := rest }.push .blockEnd) rest
    else s

def closeBlocks (s : Lexer) (column : Int) : Lexer :=
  if s.inFlow then s else closeFrom column s s.outer

/-- Pass over a byte order mark at the start of a line; it takes a column. -/
def skipMark (p : Cursor) : Cursor :=
  if p.column == 0 && p.rest.head? == some '\uFEFF' then p.next else p

/-- Go to the next token. Tabulators are blanks where no block can start. -/
def skipSpace : Nat → Lexer → Lexer
  | 0, s => s
  | fuel + 1, s =>
    let blank (c : Char) : Bool := c == ' ' || (c == '\t' && (s.inFlow || !s.keyAllowed))
    let p := (skipMark s.place).skipWhile blank
    let p := if p.rest.head? == some '#' then p.skipWhile (!isBreak ·) else p
    match p.rest with
    | c :: _ =>
      if isBreak c then
        skipSpace fuel { s with place := p.next, keyAllowed := s.keyAllowed || !s.inFlow }
      else { s with place := p }
    | [] => { s with place := p }

/-- Leave all blocks, for the end of a document. -/
def leaveBlocks? (s : Lexer) : Option Lexer :=
  (s.closeBlocks (-1)).dropKey?.map fun s => { s with keyAllowed := false }

/-! ## Directives -/

def versionNumber? (p : Cursor) : Option (Nat × Cursor) :=
  let ds := p.taken (isDigitIn 10)
  if ds.isEmpty || 9 < ds.length then none else some (decimalValue ds, p.skip ds.length)

def version? (p : Cursor) : Option (Token × Cursor) := do
  let (major, p) ← versionNumber? (p.skipWhile isBlank)
  if p.rest.head? != some '.' then none
  let (minor, p) ← versionNumber? p.next
  some (.version major minor, p)

def tagDirective? (p : Cursor) : Option (Token × Cursor) := do
  let (handle, p) ← declaredHandle? (p.skipWhile isBlank)
  if !(p.rest.head?.map isBlank).getD false then none
  let (lead, p) ← tagText? true (p.skipWhile isBlank)
  if p.atSpace then some (.tagDirective handle lead, p) else none

/-- A directive after its percent sign, with the end of its line. -/
def directive? (p : Cursor) : Option (Token × Cursor) := do
  let name := String.ofList (p.taken isNameChar)
  let p := p.skipWhile isNameChar
  if !p.atSpace then none
  let (t, p) ←
    if name == "YAML" then version? p
    else if name == "TAG" then tagDirective? p
    else none
  some (t, ← p.endLine?)

/-! ## Tokens -/

def takeDirective? (s : Lexer) : Option Lexer := do
  let s ← s.leaveBlocks?
  let (t, p) ← directive? s.place.next
  some ({ s with place := p }.push t)

def takeMarker? (s : Lexer) (t : Token) : Option Lexer :=
  s.leaveBlocks?.map (·.pushAfter 3 t)

def openFlow? (s : Lexer) (t : Token) : Option Lexer :=
  s.saveKey?.map fun s => { s with keys := none :: s.keys, keyAllowed := true }.pushAfter 1 t

def closeFlow? (s : Lexer) (t : Token) : Option Lexer :=
  s.dropKey?.map fun s =>
    { s with keys := if s.inFlow then s.keys.tail else s.keys, keyAllowed := false }.pushAfter 1 t

def takeFlowEntry? (s : Lexer) : Option Lexer :=
  s.dropKey?.map fun s => { s with keyAllowed := true }.pushAfter 1 .flowEntry

def takeBlockEntry? (s : Lexer) : Option Lexer :=
  if !s.inFlow && !s.keyAllowed then none
  else (s.openBlock s.column .blockListStart s.tokens.size).dropKey?.map fun s =>
    { s with keyAllowed := true }.pushAfter 1 .blockEntry

def takeKey? (s : Lexer) : Option Lexer :=
  if !s.inFlow && !s.keyAllowed then none
  else (s.openBlock s.column .blockTableStart s.tokens.size).dropKey?.map fun s =>
    { s with keyAllowed := !s.inFlow }.pushAfter 1 .key

/-- A colon. If a key may have started before it, the key is announced there. -/
def takeValue? (s : Lexer) : Option Lexer :=
  match s.currentKey with
  | some k =>
    let s := (s.insertAt k.before .key).openBlock k.column .blockTableStart k.before
    some ({ s.setKey none with keyAllowed := false }.pushAfter 1 .value)
  | none =>
    if !s.inFlow && !s.keyAllowed then none
    else
      let s := s.openBlock s.column .blockTableStart s.tokens.size
      some ({ s with keyAllowed := !s.inFlow }.pushAfter 1 .value)

def name? (p : Cursor) : Option (String × Cursor) :=
  let cs := p.taken isNameChar
  let p := p.skip cs.length
  let ended := p.atSpace || (p.rest.head?.map "?:,]\x7d%@`".toList.contains).getD false
  if cs.isEmpty || !ended then none else some (String.ofList cs, p)

def takeName? (s : Lexer) (make : String → Token) : Option Lexer := do
  let s ← s.saveKey?
  let (name, p) ← name? s.place.next
  some ({ s with place := p, keyAllowed := false }.push (make name))

def takeTag? (s : Lexer) : Option Lexer := do
  let s ← s.saveKey?
  let (t, p) ← tag? s.place
  if p.atSpace || (s.inFlow && p.rest.head? == some ',') then
    some ({ s with place := p, keyAllowed := false }.push (.tag t))
  else none

def takeBlock? (s : Lexer) (literal : Bool) : Option Lexer := do
  let s ← s.dropKey?
  let (text, p) ← block? literal s.indent s.place
  some ({ s with place := p, keyAllowed := true }.push (.scalar (String.ofList text) false))

def takeQuoted? (s : Lexer) (quote : Char) : Option Lexer := do
  let s ← s.saveKey?
  let (text, p) ← quoted? quote s.place
  some ({ s with place := p, keyAllowed := false }.push (.scalar (String.ofList text) false))

def takePlain? (s : Lexer) : Option Lexer := do
  let s ← s.saveKey?
  let (text, broken, p) ← plain? ⟨s.inFlow, (s.indent + 1).toNat⟩ s.place
  some ({ s with place := p, keyAllowed := broken }.push (.scalar (String.ofList text) true))

def startsPlain (s : Lexer) (c : Char) (r : List Char) : Bool :=
  if c == '-' then !(r.head?.map isBlank).getD false
  else if c == '?' || c == ':' then !s.inFlow && !atSpace r
  else !isBlank c && !",[]\x7b\x7d#&*!|>'\"%@`".toList.contains c

def takeToken? (s : Lexer) (c : Char) (r : List Char) : Option Lexer :=
  let lineStart := s.place.column == 0
  let indicator := s.inFlow || atSpace r
  if lineStart && c == '%' then s.takeDirective?
  else if lineStart && atMarker '-' (c :: r) then s.takeMarker? .documentStart
  else if lineStart && atMarker '.' (c :: r) then s.takeMarker? .documentEnd
  else if c == '[' then s.openFlow? .flowListStart
  else if c == '{' then s.openFlow? .flowTableStart
  else if c == ']' then s.closeFlow? .flowListEnd
  else if c == '}' then s.closeFlow? .flowTableEnd
  else if c == ',' then s.takeFlowEntry?
  else if c == '-' && atSpace r then s.takeBlockEntry?
  else if c == '?' && indicator then s.takeKey?
  else if c == ':' && indicator then s.takeValue?
  else if c == '*' then s.takeName? .aliasOf
  else if c == '&' then s.takeName? .anchor
  else if c == '!' then s.takeTag?
  else if c == '|' && !s.inFlow then s.takeBlock? true
  else if c == '>' && !s.inFlow then s.takeBlock? false
  else if c == '\'' || c == '"' then s.takeQuoted? c
  else if s.startsPlain c r then s.takePlain?
  else none

def finish? (s : Lexer) : Option (Array Token) :=
  s.leaveBlocks?.map (·.tokens)

def run? : Nat → Lexer → Option (Array Token)
  | 0, _ => none
  | fuel + 1, s => do
    let s ← (skipSpace (s.place.rest.length + 1) s).dropStale?
    let s := s.closeBlocks s.column
    match s.place.rest with
    | [] => s.finish?
    | c :: r => run? fuel (← s.takeToken? c r)

end Lexer

def tokens? (cs : List Char) : Option (List Token) :=
  ((Lexer.start cs).run? (cs.length + 1)).map (·.toList)

end ClassAnnotator.Yaml
