/-! # Blank characters and trimming

A character is blank when Unicode gives it the property `White_Space`.
-/

namespace ClassAnnotator.Text

/-- The characters with the property `White_Space`. -/
def isBlank (c : Char) : Bool :=
  let n := c.toNat
  (0x09 ≤ n && n ≤ 0x0D) || n == 0x20 || n == 0x85 || n == 0xA0 || n == 0x1680 ||
    (0x2000 ≤ n && n ≤ 0x200A) || n == 0x2028 || n == 0x2029 || n == 0x202F ||
    n == 0x205F || n == 0x3000

def trimRight : List Char → List Char
  | [] => []
  | c :: r =>
    match trimRight r with
    | [] => if isBlank c then [] else [c]
    | d :: s => c :: d :: s

def trim (cs : List Char) : List Char :=
  trimRight (cs.dropWhile isBlank)

end ClassAnnotator.Text
