import ClassAnnotator.Text.Digits

/-! # Quoted texts in TOML

Basic texts have escapes, literal texts have none; both also come in a form of several lines. Each
function reads what follows the opening quotes and gives the rest after the closing ones.
-/

namespace ClassAnnotator.Toml

open Text

def isBlank (c : Char) : Bool := c == ' ' || c == '\t'

/-- A character that may stand in a comment or a text: no control character but the tabulator. -/
def isPlain (c : Char) : Bool :=
  c == '\t' || (0x20 ≤ c.toNat && c.toNat != 0x7F)

/-- What follows a line break, if there is one. -/
def afterBreak? : List Char → Option (List Char)
  | '\n' :: r => some r
  | '\r' :: '\n' :: r => some r
  | _ => none

/-- The character that a one-letter escape stands for. -/
def escaped? : Char → Option Char
  | 'b' => some '\x08'
  | 't' => some '\t'
  | 'n' => some '\n'
  | 'f' => some '\x0c'
  | 'r' => some '\r'
  | 'e' => some '\x1b'
  | '"' => some '"'
  | '\\' => some '\\'
  | _ => none

def coded? (digits : List Char) : Option Char :=
  (number? 16 digits).bind charOfCode?

def escape? : List Char → Option (Char × List Char)
  | 'x' :: a :: b :: r => (coded? [a, b]).map (·, r)
  | 'u' :: a :: b :: c :: d :: r => (coded? [a, b, c, d]).map (·, r)
  | 'U' :: a :: b :: c :: d :: e :: f :: g :: h :: r => (coded? [a, b, c, d, e, f, g, h]).map (·, r)
  | c :: r => (escaped? c).map (·, r)
  | [] => none

theorem length_escape? {cs r : List Char} {c : Char} (h : escape? cs = some (c, r)) :
    r.length < cs.length := by
  unfold escape? at h
  split at h <;> simp_all <;> grind

theorem length_dropWhile_le (p : Char → Bool) (cs : List Char) :
    (cs.dropWhile p).length ≤ cs.length :=
  (List.dropWhile_suffix p).length_le

def dropSpace : List Char → List Char
  | [] => []
  | '\n' :: r => dropSpace r
  | '\r' :: '\n' :: r => dropSpace r
  | c :: r => if isBlank c then dropSpace r else c :: r

theorem length_dropSpace_le (cs : List Char) : (dropSpace cs).length ≤ cs.length := by
  fun_induction dropSpace cs with
  | case1 => exact Nat.le_refl _
  | case2 r ih => exact Nat.le_succ_of_le ih
  | case3 r ih => exact Nat.le_succ_of_le (Nat.le_succ_of_le ih)
  | case4 c r _ _ _ ih => exact Nat.le_succ_of_le ih
  | case5 => exact Nat.le_refl _

/-- Skip a line break, which blanks may precede, and all blanks and line breaks after it. -/
def skipBreak? (cs : List Char) : Option (List Char) :=
  (afterBreak? (cs.dropWhile isBlank)).map dropSpace

theorem length_skipBreak? {cs r : List Char} (h : skipBreak? cs = some r) :
    r.length ≤ cs.length := by
  obtain ⟨a, ha, rfl⟩ := Option.map_eq_some_iff.1 h
  refine Nat.le_trans (length_dropSpace_le a) (Nat.le_trans ?_ (length_dropWhile_le isBlank cs))
  unfold afterBreak? at ha
  split at ha
  · next e => cases ha; simp [e]
  · next e => cases ha; simp only [e, List.length_cons]; omega
  · cases ha

def basic? (done : List Char) (cs : List Char) : Option (String × List Char) :=
  match cs with
  | [] => none
  | '"' :: r => some (String.ofList done.reverse, r)
  | '\\' :: r =>
    match _h : escape? r with
    | none => none
    | some (c, r) => basic? (c :: done) r
  | c :: r => if isPlain c then basic? (c :: done) r else none
termination_by cs.length
decreasing_by
  · have := length_escape? _h; simp; omega
  · simp

def literal? (done : List Char) : List Char → Option (String × List Char)
  | [] => none
  | '\'' :: r => some (String.ofList done.reverse, r)
  | c :: r => if isPlain c then literal? (c :: done) r else none

/-- The end of a text of several lines, after three quotes: up to two more quotes belong to the
text. -/
def finish (quote : Char) (done : List Char) (cs : List Char) : String × List Char :=
  let extra := (cs.take 2).takeWhile (· == quote)
  (String.ofList (done.reverse ++ extra), cs.drop extra.length)

def multiBasic? (done : List Char) (cs : List Char) : Option (String × List Char) :=
  match cs with
  | [] => none
  | '"' :: '"' :: '"' :: r => some (finish '"' done r)
  | '\\' :: r =>
    match _h : escape? r with
    | some (c, r) => multiBasic? (c :: done) r
    | none =>
      match _h : skipBreak? r with
      | some r => multiBasic? done r
      | none => none
  | '\r' :: '\n' :: r => multiBasic? ('\n' :: '\r' :: done) r
  | c :: r => if isPlain c || c == '\n' then multiBasic? (c :: done) r else none
termination_by cs.length
decreasing_by
  · have := length_escape? _h
    simp only [List.length_cons]
    omega
  · have := length_skipBreak? _h
    simp only [List.length_cons]
    omega
  · simp only [List.length_cons]
    omega
  · exact Nat.lt_add_one _

def multiLiteral? (done : List Char) : List Char → Option (String × List Char)
  | [] => none
  | '\'' :: '\'' :: '\'' :: r => some (finish '\'' done r)
  | '\r' :: '\n' :: r => multiLiteral? ('\n' :: '\r' :: done) r
  | c :: r => if isPlain c || c == '\n' then multiLiteral? (c :: done) r else none

def dropBreak (cs : List Char) : List Char := (afterBreak? cs).getD cs

def lineText? : List Char → Option (String × List Char)
  | '"' :: r => basic? [] r
  | '\'' :: r => literal? [] r
  | _ => none

def quotedText? : List Char → Option (String × List Char)
  | '"' :: '"' :: '"' :: r => multiBasic? [] (dropBreak r)
  | '\'' :: '\'' :: '\'' :: r => multiLiteral? [] (dropBreak r)
  | cs => lineText? cs

end ClassAnnotator.Toml
