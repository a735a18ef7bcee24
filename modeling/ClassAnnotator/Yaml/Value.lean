import ClassAnnotator.Yaml.Number
import ClassAnnotator.Yaml.Tag

/-! # What a YAML scalar stands for

A plain scalar is null, a boolean or a number if it is written as one; all others are texts. One
of the four core tags asks for a kind instead, and tags that the document declares for itself are
refused.
-/

namespace ClassAnnotator.Yaml

def isNull (text : String) : Bool :=
  ["null", "Null", "NULL", "~"].contains text

def bool? (text : String) : Option Bool :=
  if ["true", "True", "TRUE"].contains text then some true
  else if ["false", "False", "FALSE"].contains text then some false
  else none

/-- The document of an integer, unless it is beyond 64 bits. -/
def integerDocument? (i : Int) : Option Document :=
  if fits i then some (.number (.integer i)) else none

/-- What a plain scalar stands for. Integers beyond 64 bits are refused up to 128 bits, and floats
beyond that. -/
def plainDocument? (text : String) : Option Document :=
  let cs := text.toList
  if text.isEmpty || isNull text then some .null
  else
    match bool? text with
    | some b => some (.bool b)
    | none =>
      match (integer? cs).filter isWide with
      | some i => integerDocument? i
      | none =>
        let float := if isPadded (unsigned cs) then none else float? cs
        some (float.getD (.text text))

/-- The kinds that have a tag of their own. -/
inductive CoreTag where
  | bool
  | int
  | float
  | null
  deriving DecidableEq, Repr

namespace CoreTag

def name : CoreTag → String
  | bool => "tag:yaml.org,2002:bool"
  | int => "tag:yaml.org,2002:int"
  | float => "tag:yaml.org,2002:float"
  | null => "tag:yaml.org,2002:null"

def ofTag? (tag : TagText) : Option CoreTag :=
  [bool, int, float, null].find? fun t => t.name.toList.map some == tag

def document? (text : String) : CoreTag → Option Document
  | bool => (bool? text).map .bool
  | int => (integer? text.toList).bind integerDocument?
  | float => float? text.toList
  | null => if isNull text then some .null else none

end CoreTag

/-- A tag that the document declares for itself. -/
def isLocal (tag : TagText) : Bool := tag.head? == some (some '!')

/-- A local tag that is a text is refused. -/
def isRefused (tag : TagText) : Bool := isLocal tag && tag.all (·.isSome)

/-- What a tag says about a node; a local tag that is no text says nothing. -/
def meaning (tag : Option TagText) : Option TagText := tag.filter (!isLocal ·)

def scalarDocument? (tag : Option TagText) (text : String) (plain : Bool) : Option Document :=
  if tag.any isRefused then none
  else
    match meaning tag with
    | none => if plain then plainDocument? text else some (.text text)
    | some t =>
      match CoreTag.ofTag? t with
      | some core => core.document? text
      | none => some (.text text)

end ClassAnnotator.Yaml
