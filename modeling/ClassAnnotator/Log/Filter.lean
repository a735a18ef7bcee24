import ClassAnnotator.Log.Config
import ClassAnnotator.Log.Directive

/-! # Which events are logged

Of the directives that cover an event, the most specific one decides.
-/

namespace ClassAnnotator.Log

/-- Directives that concern events, the most specific first. -/
abbrev Filter := List Directive

namespace Filter

/-- Add a directive; it replaces one for the same target and fields. -/
def insert (d : Directive) : Filter → Filter
  | [] => [d]
  | e :: rest =>
    if d.sameScope e then d :: rest
    else if d.precedes e then d :: e :: rest
    else e :: insert d rest

/-- Add a directive, unless it concerns spans alone. -/
def add (f : Filter) (d : Directive) : Filter :=
  if d.concernsEvents then insert d f else f

/-- The filter of some directives. Without any, errors pass. -/
def ofDirectives (ds : List Directive) : Filter :=
  let f := ds.foldl add []
  if f.isEmpty && !ds.any Directive.concernsSpans then
    [{ Directive.unlimited with limit := some .error }]
  else f

def ofLevel (l : Level) : Filter :=
  [{ Directive.unlimited with limit := some l }]

def parts (s : String) : List String :=
  (Text.splitEach ',' s.toList).map String.ofList

def ofText? (s : String) : Option Filter :=
  (((parts s).filter (· != "")).mapM Directive.ofText?).map ofDirectives

/-- The directives of a list, trimmed; blank ones are left out. -/
def trimmedParts (s : String) : List String :=
  ((Text.splitEach ',' s.toList).map fun cs => String.ofList (Text.trim cs)).filter (· != "")

/-- The filter for a configuration, and the directives that are not well formed. The variable
`RUST_LOG` takes the place of the level. -/
def ofConfig (env : Environment) (c : Config) : Filter × List String :=
  let base := ((env "RUST_LOG").bind ofText?).getD (ofLevel c.level)
  let extra := (c.targetFilter.map trimmedParts).getD []
  ((extra.filterMap Directive.ofText?).foldl add base,
    extra.filter fun s => (Directive.ofText? s).isNone)

def passes (f : Filter) (e : Event) : Bool :=
  match f.find? (·.covers e) with
  | some d =>
    match d.limit with
    | some l => l.severity ≤ e.level.severity
    | none => false
  | none => false

end Filter

end ClassAnnotator.Log
