import ClassAnnotator.Log.Event
import ClassAnnotator.Log.FieldMatch
import ClassAnnotator.Text.Alphanumeric
import ClassAnnotator.Text.Blank
import ClassAnnotator.Text.Digits

/-! # Filter directives

A directive is a level, a target, or `target[span{field=value}]=level` with any part but
the level left out. A directive that names a span, or a value of a field, concerns spans alone.
-/

namespace ClassAnnotator.Log

structure Directive where
  /-- Events whose target starts with this text are meant. -/
  target : Option String
  namesSpan : Bool
  /-- The fields that an event must have. -/
  fields : List FieldMatch
  /-- The least severe level that passes; none passes nothing. -/
  limit : Option Level
  deriving DecidableEq, Repr

namespace Directive

/-- A level by number or by name; numbers grow with verbosity. -/
def limit? (s : String) : Option (Option Level) :=
  let digits := match s.toList with
    | '+' :: r => r
    | r => r
  match Text.number? 10 digits with
  | some 0 => some none
  | some 1 => some (some .error)
  | some 2 => some (some .warn)
  | some 3 => some (some .info)
  | some 4 => some (some .debug)
  | some 5 => some (some .trace)
  | some _ => none
  | none =>
    let named (t : String) : Bool := Text.sameIgnoringCase s t
    if named "error" then some (some .error)
    else if named "warn" then some (some .warn)
    else if named "info" then some (some .info)
    else if named "debug" then some (some .debug)
    else if named "trace" then some (some .trace)
    else if named "off" then some none
    else none

/-- A character that may start a directive that is no bracket. -/
def isFirst (c : Char) : Bool :=
  c == '-' || c == ':' || c == '_' || Text.isAlphanumeric c

/-- Where in a directive the reader is; a number counts the bytes before the part. -/
inductive ReadState where
  | start
  | levelOrTarget
  | span (began : Nat)
  | field (began : Nat)
  | fields
  | target
  | level (began : Nat)
  deriving DecidableEq, Repr

/-- The characters between byte `began` and byte `stop`. -/
def slice? (cs : List Char) (began stop : Nat) : Option String := do
  let (front, _) ← Text.splitBytes? stop cs
  let (_, part) ← Text.splitBytes? began front
  some (String.ofList part)

/-- Read the character at byte `i`. Parts are cut out of `raw`. -/
def step? (raw : List Char) (d : Directive) (s : ReadState) (i : Nat) (c : Char) :
    Option (Directive × ReadState) :=
  match s with
  | .start =>
    if c == '[' then some (d, .span (i + 1))
    else if isFirst c then some (d, .levelOrTarget)
    else none
  | .levelOrTarget =>
    if c == '=' then (slice? raw 0 i).map fun t => ({ d with target := some t }, .level (i + 1))
    else if c == '[' then (slice? raw 0 i).map fun t => ({ d with target := some t }, .span (i + 1))
    else some (d, s)
  | .span began =>
    if c == ']' then some ({ d with namesSpan := true }, .target)
    else if c == '{' then some ({ d with namesSpan := began < i }, .field (i + 1))
    else some (d, s)
  | .field began =>
    if c == '}' then
      ((slice? raw began i).bind FieldMatch.ofText?).map fun f =>
        ({ d with fields := d.fields ++ [f] }, .fields)
    else some (d, s)
  | .fields => if c == ']' then some (d, .target) else none
  | .target => if c == '=' then some (d, .level (i + 1)) else none
  | .level _ => some (d, s)

def readFrom? (raw : List Char) (d : Directive) (s : ReadState) (i : Nat) :
    List Char → Option (Directive × ReadState)
  | [] => some (d, s)
  | c :: r =>
    match step? raw d s i c with
    | none => none
    | some (d, s) => readFrom? raw d s (i + c.utf8Size) r

/-- A directive without a level lets everything pass. -/
def unlimited : Directive := ⟨none, false, [], some .trace⟩

/-- Read a directive. Bytes are counted in the trimmed text, but parts are cut out of the text as
it is, so blanks in front of a directive shift its parts. -/
def ofText? (text : String) : Option Directive :=
  let raw := text.toList
  match readFrom? raw unlimited .start 0 (Text.trim raw) with
  | some (d, .levelOrTarget) =>
    match limit? text with
    | some limit => some { d with limit }
    | none => some { d with target := some text }
  | some (d, .level began) => do
    let level ← slice? raw began text.utf8ByteSize
    if level.isEmpty then some d else (limit? level).map fun limit => { d with limit }
  | some (d, .target) => some d
  | _ => none

def concernsEvents (d : Directive) : Bool :=
  !d.namesSpan && d.fields.all (!·.hasValue)

def concernsSpans (d : Directive) : Bool :=
  d.namesSpan || !d.fields.isEmpty

/-- The event has the target and the fields that the directive asks for. -/
def covers (d : Directive) (e : Event) : Bool :=
  (match d.target with
    | none => true
    | some t => (Text.after? t e.target).isSome) &&
  d.fields.all fun f => f.name == "message" || e.fields.any (·.1 == f.name)

def sameScope (a b : Directive) : Bool :=
  a.target == b.target && a.fields == b.fields

/-- The directive `a` is tried before `b`: a longer target, more fields, and then the later names
first. -/
def precedes (a b : Directive) : Bool :=
  let size (d : Directive) : Nat := match d.target with
    | none => 0
    | some t => t.utf8ByteSize + 1
  let names (d : Directive) : List String := d.fields.map (·.name)
  if size a != size b then size b < size a
  else if (names a).length != (names b).length then (names b).length < (names a).length
  else if a.target != b.target then b.target.getD "" < a.target.getD ""
  else names b < names a

end Directive

end ClassAnnotator.Log
