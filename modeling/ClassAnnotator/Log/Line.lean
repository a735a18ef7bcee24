import ClassAnnotator.Document.Basic
import ClassAnnotator.Log.Filter

/-! # Lines of the log

An event is written as a text or as a record. The time of writing is left to the writer.
-/

namespace ClassAnnotator.Log

inductive Line where
  | text (s : String)
  | record (d : Document)

namespace FieldValue

def quotedTexts (items : List String) : String :=
  "[" ++ ", ".intercalate (items.map fun s => "\"" ++ s ++ "\"") ++ "]"

def display : FieldValue → String
  | text s => s
  | count n => toString n
  | texts items => quotedTexts items

def document : FieldValue → Document
  | text s => .text s
  | count n => .number (.integer n)
  | texts items => .text (quotedTexts items)

end FieldValue

namespace Event

/-- The level in five columns, the target, the message, and the fields. -/
def prettyText (e : Event) : String :=
  String.ofList (List.replicate (5 - e.level.name.length) ' ') ++ e.level.name ++ " " ++
    e.target ++ ": " ++ e.message ++
    String.join (e.fields.map fun (name, value) => " " ++ name ++ "=" ++ value.display)

def document (e : Event) : Document :=
  .table [("level", .text e.level.name),
    ("fields", .table (("message", .text e.message) ::
      e.fields.map fun (name, value) => (name, value.document))),
    ("target", .text e.target)]

/-- The lines of an event; line breaks in its fields break the text. -/
def lines (f : Format) (e : Event) : List Line :=
  match f with
  | .json => [.record e.document]
  | .pretty => (Text.lines e.prettyText).map .text

end Event

def warningLines (directive : String) : List Line :=
  (Text.lines ("Warning: Invalid log filter directive: " ++ directive)).map .text

/-- The log of a run: warnings about directives, then the events that pass. -/
def lines (env : Environment) (events : List Event) : List Line :=
  let config := Config.ofEnvironment env
  let (filter, bad) := Filter.ofConfig env config
  bad.flatMap warningLines ++ (events.filter filter.passes).flatMap (Event.lines config.format)

end ClassAnnotator.Log
