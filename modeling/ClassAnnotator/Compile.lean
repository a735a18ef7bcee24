import ClassAnnotator.Log.Event
import ClassAnnotator.Properties
import ClassAnnotator.Quoting
import ClassAnnotator.Selection
import ClassAnnotator.Text.Split

/-! # Compiling a configuration into a selection

An entry whose key has no point is a flag: it turns a feature on when its value is `true` in any
case. An entry `owner.option` gives an option to the feature that the flag `owner` turns on.
Entries that mean nothing are passed over, so compiling never fails.
-/

namespace ClassAnnotator

/-- What an entry does to a selection. -/
inductive EntryRole where
  | option
  | unknownFlag
  | disabledFlag (f : Feature)
  | enabledFlag (f : Feature)
  deriving DecidableEq, Repr

namespace EntryRole

def isTrue (value : String) : Bool :=
  Text.sameIgnoringCase value "true"

def of (key value : String) : EntryRole :=
  if '.' ∈ key.toList then option
  else
    match Feature.lookup key with
    | none => unknownFlag
    | some f => if isTrue value then enabledFlag f else disabledFlag f

end EntryRole

namespace Properties

/-- The fragments of the options given under `owner`, as it is spelled. -/
def fragments (p : Properties) (owner : String) : List String :=
  p.entries.filterMap fun (key, value) =>
    (Text.after? (owner ++ ".") key).map (Quoting.optionEntry · value)

def compileEntry (p : Properties) (s : Selection) (entry : String × String) : Selection :=
  match EntryRole.of entry.1 entry.2 with
  | .enabledFlag f =>
    ((s.select f).addOptions f.key (p.fragments entry.1)).selectDependencies Feature.catalog f
  | _ => s

def compile (p : Properties) : Selection :=
  p.entries.foldl p.compileEntry Selection.initial

def compileTarget : String := "annogen::compiler"

/-- The event for a flag that turns nothing on. -/
def entryEvent? (entry : String × String) : Option Log.Event :=
  match EntryRole.of entry.1 entry.2 with
  | .unknownFlag =>
    some ⟨.debug, compileTarget, "Ignoring unknown feature key", [("key", .text entry.1)]⟩
  | .disabledFlag _ =>
    some ⟨.debug, compileTarget, "Feature disabled",
      [("key", .text entry.1), ("value", .text entry.2)]⟩
  | _ => none

/-- The events of compiling: one for each flag that turns nothing on, then a summary. -/
def compileEvents (p : Properties) : List Log.Event :=
  p.entries.filterMap entryEvent? ++
    [⟨.info, compileTarget, "Compiled annotation selection",
      [("features", .texts p.compile.keys), ("properties_count", .count p.size)]⟩]

end Properties

end ClassAnnotator
