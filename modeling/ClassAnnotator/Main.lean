import ClassAnnotator.Program

/-! # The command line program

Reads what the command needs, runs it, and writes the results.
-/

namespace ClassAnnotator

def readText? (path : String) : IO (Option String) := do
  try
    return String.fromUTF8? (← IO.FS.readBinFile path)
  catch _ =>
    return none

/-- The path of the configuration file that a command reads. -/
def Command.configPath? : Command → Option String
  | render s => s.config
  | annotate s _ _ => s.config
  | lint s _ _ _ => s.config
  | features _ => none

def readEnvironment : IO Log.Environment := do
  let names := ["RUST_LOG", "ANNOGEN_LOG_LEVEL", "ANNOGEN_LOG_FORMAT", "ANNOGEN_LOG_TARGET_FILTER"]
  let values ← names.mapM fun name => do return (name, ← IO.getEnv name)
  return fun name => (Association.get? name values).join

def writeLog (line : Log.Line) : IO Unit :=
  match line with
  | .text s => IO.eprintln s
  | .record d => IO.eprintln (Json.compact d)

def runProgram (args : List String) : IO UInt32 := do
  let path? := match CommandLine.read args with
    | .ok command => command.configPath?
    | .error _ => none
  let contents ← match path? with
    | some path => readText? path
    | none => pure none
  let result := run args (← readEnvironment) fun _ => contents
  result.log.forM writeLog
  IO.print result.stdout
  if let some message := result.errorLine then
    IO.eprintln ("Error: " ++ message)
  return result.code.toUInt32

end ClassAnnotator

def main (args : List String) : IO UInt32 :=
  ClassAnnotator.runProgram args
