/-! # Comparing texts without regard to the case of ASCII letters

Letters beyond ASCII are compared as they are.
-/

namespace ClassAnnotator.Text

/-- The text with its ASCII letters in lower case. -/
def foldCase (s : String) : List Char :=
  s.toList.map Char.toLower

/-- The two texts differ at most in the case of ASCII letters. -/
def sameIgnoringCase (a b : String) : Bool :=
  foldCase a == foldCase b

theorem sameIgnoringCase_iff {a b : String} :
    sameIgnoringCase a b = true ↔ foldCase a = foldCase b := by
  simp [sameIgnoringCase]

theorem sameIgnoringCase_refl (a : String) : sameIgnoringCase a a = true := by
  simp [sameIgnoringCase]

end ClassAnnotator.Text
