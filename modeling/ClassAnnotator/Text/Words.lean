/-! # Words in a text

A word is a maximal run of ASCII letters, digits and underscores. `wrapWords` puts every word
between double quotes and keeps all else in place.
-/

namespace ClassAnnotator.Text

def isWordChar (c : Char) : Bool :=
  c.isAlphanum || c == '_'

/-- Wrap the words of the rest of a text; `inside` says that the text before it ends in a word. -/
def wrapWordsFrom (inside : Bool) : List Char → List Char
  | [] => if inside then ['"'] else []
  | c :: r =>
    if isWordChar c = inside then c :: wrapWordsFrom inside r
    else '"' :: c :: wrapWordsFrom (isWordChar c) r

def wrapWords (cs : List Char) : List Char :=
  wrapWordsFrom false cs

end ClassAnnotator.Text
