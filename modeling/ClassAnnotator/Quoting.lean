import ClassAnnotator.Text.Blank
import ClassAnnotator.Text.Split
import ClassAnnotator.Text.Words

/-! # Literals of annotation options

Option values are untyped texts. A value with a comma is an array literal, `true` and `false`
are boolean literals, and every word of any other value is quoted. No value is refused.
-/

namespace ClassAnnotator

open Text

namespace Quoting

/-- The value is spelled exactly like a boolean literal. -/
def isBoolean (cs : List Char) : Bool :=
  cs == "true".toList || cs == "false".toList

def quoteChars (cs : List Char) : List Char :=
  if isBoolean cs then cs else wrapWords cs

/-- The elements of a value: the trimmed texts between its commas. -/
def items (cs : List Char) : List (List Char) :=
  (splitEach ',' cs).map trim

/-- The array literal with the given elements, before its words are quoted. -/
def arrayText (parts : List (List Char)) : List Char :=
  '{' :: [',', ' '].intercalate parts ++ ['}']

def literalChars (cs : List Char) : List Char :=
  if ',' ∈ cs then quoteChars (arrayText (items cs)) else quoteChars cs

/-- Quote every word of `value`, unless it is a boolean literal. -/
def quote (value : String) : String :=
  String.ofList (quoteChars value.toList)

/-- The annotation literal for `value`; a comma makes it an array. -/
def literal (value : String) : String :=
  String.ofList (literalChars value.toList)

/-- The fragment that sets option `key` to `value` in an annotation. -/
def optionEntry (key value : String) : String :=
  key ++ "=" ++ literal value

end Quoting

end ClassAnnotator
