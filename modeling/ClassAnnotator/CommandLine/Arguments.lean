import ClassAnnotator.CommandLine.Command

/-! # Reading the command line

Options are read one argument at a time. An option that stands without a value waits for the next
argument; its value is checked when the next option comes, or at the end.
-/

namespace ClassAnnotator

inductive UsageError where
  /-- A pair that is not accepted. -/
  | valueValidation (message : String)
  | unknownArgument
  /-- A value is missing or empty. -/
  | invalidValue
  /-- An option stands twice. -/
  | argumentConflict
  | invalidSubcommand
  | missingRequiredArgument
  /-- A value is given to an option that takes none. -/
  | tooManyValues
  | displayHelp
  | displayHelpOnMissingArgument
  deriving DecidableEq, Repr

namespace CommandLine

inductive PairError where
  | noEquals (text : String)
  | emptyKey (text : String)
  deriving DecidableEq, Repr

def PairError.message : PairError → String
  | noEquals s => "expected KEY=VALUE, got '" ++ s ++ "'"
  | emptyKey s => "empty key in '" ++ s ++ "'"

/-- Split a text at its first `=`; the key may not be empty. -/
def readPair (s : String) : Except PairError (String × String) :=
  match Text.cut? '=' s with
  | none => .error (.noEquals s)
  | some (key, value) => if key.isEmpty then .error (.emptyKey s) else .ok (key, value)

inductive Verb where
  | render
  | annotate
  | lint
  | features
  deriving DecidableEq, Repr

def Verb.ofName? : String → Option Verb
  | "render" => some .render
  | "annotate" => some .annotate
  | "lint" => some .lint
  | "features" => some .features
  | _ => none

inductive OptionName where
  | config
  | set
  | className
  | mapper
  | failOnError
  | errorsOnly
  | json
  | help
  deriving DecidableEq, Repr

namespace OptionName

def long : OptionName → String
  | config => "config"
  | set => "set"
  | className => "class"
  | mapper => "mapper"
  | failOnError => "fail-on-error"
  | errorsOnly => "errors-only"
  | json => "json"
  | help => "help"

def short? : OptionName → Option Char
  | config => some 'c'
  | set => some 's'
  | help => some 'h'
  | _ => none

def takesValue : OptionName → Bool
  | config => true
  | set => true
  | className => true
  | _ => false

/-- The option may stand more than once. -/
def repeats (o : OptionName) : Bool := o == set

end OptionName

def Verb.options : Verb → List OptionName
  | render => [.config, .set, .help]
  | annotate => [.config, .set, .className, .mapper, .help]
  | lint => [.config, .set, .failOnError, .errorsOnly, .json, .help]
  | features => [.json, .help]

structure Progress where
  /-- The options that have taken effect. -/
  seen : List OptionName
  config : Option String
  pairs : List (String × String)
  className : Option String
  /-- The option that waits to take effect, with its value once that has been read. -/
  pending : Option (OptionName × Option String)
  /-- After `--`, no argument is an option. -/
  closed : Bool

namespace Progress

def start : Progress := ⟨[], none, [], none, none, false⟩

def apply (p : Progress) (o : OptionName) (value : String) : Except UsageError Progress :=
  if o ∈ p.seen && !o.repeats then .error .argumentConflict
  else
    let p := { p with seen := p.seen ++ [o] }
    match o with
    | .help => .error .displayHelp
    | .config => if value.isEmpty then .error .invalidValue else .ok { p with config := some value }
    | .set =>
      match readPair value with
      | .error e => .error (.valueValidation e.message)
      | .ok pair => .ok { p with pairs := p.pairs ++ [pair] }
    | .className => .ok { p with className := some value }
    | _ => .ok p

def settle (p : Progress) : Except UsageError Progress :=
  match p.pending with
  | none => .ok p
  | some (_, none) => .error .invalidValue
  | some (o, some value) => { p with pending := none }.apply o value

def takeOption (p : Progress) (o : OptionName) (attached : Option String) :
    Except UsageError Progress :=
  if o.takesValue then
    p.settle.bind fun p =>
      match attached with
      | some value => p.apply o value
      | none => .ok { p with pending := some (o, none) }
  else
    match attached with
    | some _ => .error .tooManyValues
    | none => p.settle.bind (·.apply o "")

/-- The value attached to a short option; an `=` before it is dropped. -/
def shortValue : List Char → Option String
  | [] => none
  | '=' :: r => some (String.ofList r)
  | r => some (String.ofList r)

/-- Options of one letter each; one that takes a value takes the rest of the argument. -/
def takeShort (options : List OptionName) (p : Progress) : List Char → Except UsageError Progress
  | [] => .ok p
  | c :: r =>
    match options.find? (·.short? == some c) with
    | none => .error .unknownArgument
    | some o =>
      if o.takesValue then p.takeOption o (shortValue r)
      else (p.takeOption o none).bind (takeShort options · r)

def takeLong (options : List OptionName) (p : Progress) (text : List Char) :
    Except UsageError Progress :=
  let (name, value) := match Text.splitFirst? '=' text with
    | some (name, value) => (String.ofList name, some (String.ofList value))
    | none => (String.ofList text, none)
  match options.find? (·.long == name) with
  | none => .error .unknownArgument
  | some o => p.takeOption o value

/-- An argument that is no option: the value of the waiting option, or out of place. -/
def takeWord (p : Progress) (arg : String) : Except UsageError Progress :=
  match p.pending with
  | some (o, none) => .ok { p with pending := some (o, some arg) }
  | _ => .error .unknownArgument

def take (options : List OptionName) (p : Progress) (arg : String) : Except UsageError Progress :=
  if p.closed then .error .unknownArgument
  else
    match arg.toList with
    | ['-', '-'] => .ok { p with closed := true }
    | '-' :: '-' :: text => p.takeLong options text
    | '-' :: c :: r => p.takeShort options (c :: r)
    | _ => p.takeWord arg

def source (p : Progress) : PropertySource := ⟨p.config, p.pairs⟩

def command (p : Progress) : Verb → Except UsageError Command
  | .render => .ok (.render p.source)
  | .annotate =>
    match p.className with
    | none => .error .missingRequiredArgument
    | some name => .ok (.annotate p.source name (.mapper ∈ p.seen))
  | .lint =>
    .ok (.lint p.source (.failOnError ∈ p.seen) (.errorsOnly ∈ p.seen) (.json ∈ p.seen))
  | .features => .ok (.features (.json ∈ p.seen))

end Progress

def readVerb (verb : Verb) (args : List String) : Except UsageError Command := do
  let p ← args.foldlM (Progress.take verb.options) Progress.start
  let p ← p.settle
  p.command verb

/-- The arguments after `help`: nothing, a verb, or `help`. -/
def readHelp : List String → UsageError
  | [] => .displayHelp
  | [name] =>
    if (Verb.ofName? name).isSome || name == "help" then .displayHelp else .invalidSubcommand
  | _ => .invalidSubcommand

/-- An argument in the place of the verb that is neither a verb nor `help`. -/
def misplaced (arg : String) : UsageError :=
  match arg.toList with
  | '-' :: '-' :: text =>
    match Text.splitFirst? '=' text with
    | some (name, _) => if name == "help".toList then .tooManyValues else .unknownArgument
    | none => if text == "help".toList then .displayHelp else .unknownArgument
  | '-' :: 'h' :: _ => .displayHelp
  | '-' :: _ :: _ => .unknownArgument
  | _ => .invalidSubcommand

/-- The first argument after `--` in the place of the verb: a verb is not expected there. -/
def readClosed : List String → UsageError
  | [] => .displayHelpOnMissingArgument
  | name :: _ =>
    if (Verb.ofName? name).isSome || name == "help" then .unknownArgument else .invalidSubcommand

def read : List String → Except UsageError Command
  | [] => .error .displayHelpOnMissingArgument
  | arg :: rest =>
    match Verb.ofName? arg with
    | some verb => readVerb verb rest
    | none =>
      if arg == "help" then .error (readHelp rest)
      else if arg == "--" then .error (readClosed rest)
      else .error (misplaced arg)

end CommandLine

end ClassAnnotator
