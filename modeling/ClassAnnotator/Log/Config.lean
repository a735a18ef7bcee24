import ClassAnnotator.Log.Event
import ClassAnnotator.Text.Case

/-! # Configuration of logging

Three variables of the environment set the level, the format and further directives. Values that
are not known leave the default.
-/

namespace ClassAnnotator.Log

abbrev Environment := String → Option String

inductive Format where
  | json
  | pretty
  deriving DecidableEq, Repr

namespace Format

def ofText (s : String) : Format :=
  if Text.sameIgnoringCase s "json" then json else pretty

def name : Format → String
  | json => "Json"
  | pretty => "Pretty"

end Format

structure Config where
  /-- The text of the level, as it is written. -/
  levelText : String
  format : Format
  /-- Directives with commas between them. -/
  targetFilter : Option String
  deriving DecidableEq, Repr

namespace Config

def default : Config := ⟨"warn", .pretty, none⟩

def ofEnvironment (env : Environment) : Config :=
  { levelText := (env "ANNOGEN_LOG_LEVEL").getD "warn"
    format := Format.ofText ((env "ANNOGEN_LOG_FORMAT").getD "pretty")
    targetFilter := env "ANNOGEN_LOG_TARGET_FILTER" }

/-- The level that the text names, in any case; other texts mean `warn`. -/
def level (c : Config) : Level :=
  let named (s : String) : Bool := Text.sameIgnoringCase c.levelText s
  if named "trace" then .trace
  else if named "debug" then .debug
  else if named "info" then .info
  else if named "error" then .error
  else .warn

end Config

end ClassAnnotator.Log
