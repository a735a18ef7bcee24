import ClassAnnotator.Yaml.Text

/-! # Gaps between the words of a scalar

Blanks on one line are kept. A single line break becomes a blank, and of several ones the first is
dropped; the blanks around them are dropped, too.
-/

namespace ClassAnnotator.Yaml

structure Gap where
  blanks : List Char
  first : List Char
  more : List Char
  broken : Bool
  deriving Repr

namespace Gap

def none : Gap := ⟨[], [], [], false⟩

/-- The gap after a line break that is written with a backslash. -/
def escaped : Gap := ⟨[], [], [], true⟩

def push (g : Gap) (c : Char) : Gap :=
  if isBreak c then
    if g.broken then { g with more := g.more ++ [c] } else ⟨[], [c], g.more, true⟩
  else if g.broken then g
  else { g with blanks := g.blanks ++ [c] }

def text (g : Gap) : List Char :=
  if !g.broken then g.blanks
  else if g.first == ['\n'] then (if g.more.isEmpty then [' '] else g.more)
  else g.first ++ g.more

/-- Read a gap to its end. With a least column for text, tabulators before it are refused. -/
def read? (least : Option Nat) : Nat → Gap → Cursor → Option (Gap × Cursor)
  | 0, g, p => some (g, p)
  | fuel + 1, g, p =>
    match p.rest with
    | [] => some (g, p)
    | c :: _ =>
      if !(isBlank c || isBreak c) then some (g, p)
      else if g.broken && c == '\t' && p.column < least.getD 0 then Option.none
      else read? least fuel (g.push c) p.next

end Gap

end ClassAnnotator.Yaml
