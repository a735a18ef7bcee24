import ClassAnnotator.Element
import ClassAnnotator.Json.Printer
import ClassAnnotator.Lint.Report
import ClassAnnotator.Plugin.Basic
import ClassAnnotator.Source.Load

/-! # Commands

A command yields a text for standard output, log events, and perhaps an error. What it printed
before an error stands.
-/

namespace ClassAnnotator

inductive Command where
  | render (source : PropertySource)
  | annotate (source : PropertySource) (className : String) (mapper : Bool)
  | lint (source : PropertySource) (failOnError errorsOnly json : Bool)
  | features (json : Bool)
  deriving DecidableEq, Repr

inductive CommandError where
  | load (e : LoadError)
  | lint (source : PropertySource)
  deriving DecidableEq, Repr

namespace CommandError

def lintMessage (s : PropertySource) : String :=
  "lint errors found in " ++ s.config.getD "command-line properties"

/-- What went wrong, without its cause. -/
def headline : CommandError → String
  | load e => e.headline
  | lint s => lintMessage s

def message : CommandError → String
  | load e => e.message
  | lint s => lintMessage s

end CommandError

structure Outcome where
  stdout : String
  events : List Log.Event
  error : Option CommandError
  deriving DecidableEq, Repr

namespace Outcome

def ofText (s : String) : Outcome := ⟨s, [], none⟩

def failure (e : CommandError) : Outcome := ⟨"", [], some e⟩

end Outcome

def Lint.Issue.document (i : Lint.Issue) : Document :=
  .table ([("location", .text i.location), ("severity", .text i.severity.name),
      ("kind", .text i.kind), ("message", .text i.message)] ++
    (i.suggestion.map fun s => ("suggestion", Document.text s)).toList)

def Feature.document (f : Feature) : Document :=
  .table [("key", .text f.key), ("name", .text f.name), ("import", .text f.importName),
    ("depends_on", .list (f.dependsOn.map .text))]

namespace Command

/-- The text, filled up with blanks to `width` characters. -/
def padded (width : Nat) (s : String) : String :=
  s ++ String.ofList (List.replicate (width - s.length) ' ')

def featureNote (f : Feature) : String :=
  if f.isDefault then " (always on)"
  else if f.dependsOn.isEmpty then ""
  else " (requires " ++ ", ".intercalate f.dependsOn ++ ")"

def featureLine (f : Feature) : String :=
  padded 20 f.key ++ " " ++ padded 20 f.name ++ " " ++ f.importName ++ featureNote f ++ "\n"

def featureList : String := String.join (Feature.catalog.map featureLine)

def featureJson : String :=
  Json.pretty (.list (Feature.catalog.map Feature.document)) ++ "\n"

def renderText (s : Selection) : String :=
  Element.importLines s.imports ++ Element.annotationLines s.annotations

/-- The class, and below it the client interface if it is wanted. -/
def annotateText (plugin : Plugin) (className : String) (mapper : Bool) : String :=
  let model := (plugin.modelClassGenerated .baseRecord (.bare .modelClass className)).2
  let client := (plugin.clientGenerated (.bare .clientInterface (className ++ "Mapper"))).2
  model.render ++ "\n" ++ if mapper then "\n" ++ client.render ++ "\n" else ""

def lintText (issues : List Lint.Issue) (json : Bool) : String :=
  if json then Json.pretty (.list (issues.map Lint.Issue.document)) ++ "\n"
  else Lint.Report.text issues

/-- Carry out a command, where `read` gives the texts of files. -/
def execute (read : String → Option String) : Command → Outcome
  | render source =>
    match source.load read with
    | .error e => .failure (.load e)
    | .ok p => ⟨renderText p.compile, p.compileEvents, none⟩
  | annotate source className mapper =>
    match source.load read with
    | .error e => .failure (.load e)
    | .ok p =>
      let plugin := Plugin.configured p
      ⟨annotateText plugin className mapper,
        p.compileEvents ++ plugin.modelClassEvents (.bare .modelClass className) className, none⟩
  | lint source failOnError errorsOnly json =>
    match source.load read with
    | .error e => .failure (.load e)
    | .ok p =>
      let all := Lint.issues p
      let issues := if errorsOnly then all.filter (·.severity == .error) else all
      ⟨lintText issues json, [],
        if failOnError && Lint.hasErrors issues then some (.lint source) else none⟩
  | features json => .ofText (if json then featureJson else featureList)

end Command

end ClassAnnotator
