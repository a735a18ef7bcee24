import ClassAnnotator.CommandLine.Arguments
import ClassAnnotator.Log.Line

/-! # A run of the program

From arguments, environment and files to what is printed, what is logged and the exit code.
-/

namespace ClassAnnotator

structure RunResult where
  code : Nat
  stdout : String
  log : List Log.Line
  /-- The first line of the error, if the command failed. -/
  errorLine : Option String

/-- The exit code for arguments that are no command; asking for help is no failure. -/
def UsageError.code : UsageError → Nat
  | displayHelp => 0
  | _ => 2

def run (args : List String) (env : Log.Environment) (read : String → Option String) : RunResult :=
  match CommandLine.read args with
  | .error e => ⟨e.code, "", [], none⟩
  | .ok command =>
    let o := command.execute read
    ⟨if o.error.isSome then 1 else 0, o.stdout, Log.lines env o.events,
      o.error.bind fun e => (Text.lines e.headline).head?⟩

end ClassAnnotator
