/-! # Patterns

A pattern describes a set of texts. It reads texts as characters or as bytes, and can change the
mode on the way. The tree holds what decides whether a pattern can be used: what it asks for in
each mode, and how deep it is.
-/

namespace ClassAnnotator

namespace Pattern

inductive Mode where
  | unicode
  | bytes
  deriving DecidableEq, Repr

/-- A part of a pattern that has no parts of its own. -/
inductive Atom where
  | char (c : Char)
  /-- A character that is written as two hexadecimal digits. -/
  | byte (c : Char)
  | any
  /-- The start or the end of a line or of the text. -/
  | anchor
  /-- A place where a word starts or ends, or does not. -/
  | wordBoundary
  /-- The digits, the blanks or the characters of words, or all others. -/
  | shorthand (negated : Bool)
  /-- The characters of a general category. -/
  | category
  deriving DecidableEq, Repr

inductive CharSet where
  | empty
  | char (c : Char)
  | range (first last : Char)
  /-- One of the classes that have a name. -/
  | named (negated : Bool)
  | shorthand (negated : Bool)
  | category
  | union (items : List CharSet)
  | bracketed (negated : Bool) (s : CharSet)
  /-- An intersection or a difference. -/
  | operation (left right : CharSet)

end Pattern

inductive Pattern where
  | empty
  | atom (a : Pattern.Atom)
  | set (s : Pattern.CharSet)
  /-- Flags that hold from here to the end of the group; they may change the mode. -/
  | flags (mode : Option Pattern.Mode)
  | repeated (p : Pattern)
  | group (mode : Option Pattern.Mode) (p : Pattern)
  | sequence (parts : List Pattern)
  | alternatives (arms : List Pattern)

namespace Pattern

def isAscii (c : Char) : Bool := c.toNat < 0x80

/-- The atom can be used in the given mode: bytes beyond ASCII are no text, and boundaries of words
are known only among bytes. -/
def Atom.fits (mode : Mode) : Atom → Bool
  | char _ => true
  | byte c => mode == .unicode || isAscii c
  | any => mode == .unicode
  | anchor => true
  | wordBoundary => mode == .bytes
  | shorthand negated => mode == .unicode || !negated
  | category => mode == .unicode

namespace CharSet

def ofItems : List CharSet → CharSet
  | [] => empty
  | [s] => s
  | items => union items

mutual

/-- The set names nothing beyond ASCII and excludes nothing. -/
def isPlain : CharSet → Bool
  | empty => true
  | char c => isAscii c
  | range first last => isAscii first && isAscii last
  | named negated => !negated
  | shorthand negated => !negated
  | category => false
  | union items => allPlain items
  | bracketed negated s => !negated && s.isPlain
  | operation left right => left.isPlain && right.isPlain

def allPlain : List CharSet → Bool
  | [] => true
  | s :: rest => s.isPlain && allPlain rest

end

mutual

def depth : CharSet → Nat
  | empty => 0
  | char _ => 0
  | range _ _ => 0
  | named _ => 0
  | shorthand _ => 0
  | category => 0
  | union items => depthOfAll items + 1
  | bracketed _ s => s.depth + 1
  | operation left right => max left.depth right.depth + 1

def depthOfAll : List CharSet → Nat
  | [] => 0
  | s :: rest => max s.depth (depthOfAll rest)

end

end CharSet

def ofParts : List Pattern → Pattern
  | [] => empty
  | [p] => p
  | parts => sequence parts

def ofArms : List Pattern → Pattern
  | [] => empty
  | [p] => p
  | arms => alternatives arms

mutual

/-- The mode after a pattern that starts in the given one, if all its parts can be used. -/
def modeAfter? (mode : Mode) : Pattern → Option Mode
  | empty => some mode
  | atom a => if a.fits mode then some mode else none
  | set s => if mode == .unicode || s.isPlain then some mode else none
  | flags new => some (new.getD mode)
  | repeated p => p.modeAfter? mode
  | group new p => (p.modeAfter? (new.getD mode)).map fun _ => mode
  | sequence parts => modeAfterAll? mode parts
  | alternatives arms => modeAfterAll? mode arms

def modeAfterAll? (mode : Mode) : List Pattern → Option Mode
  | [] => some mode
  | p :: rest =>
    match p.modeAfter? mode with
    | none => none
    | some mode => modeAfterAll? mode rest

end

mutual

def depth : Pattern → Nat
  | empty => 0
  | atom _ => 0
  | set s => s.depth
  | flags _ => 0
  | repeated p => p.depth + 1
  | group _ p => p.depth + 1
  | sequence parts => depthOfAll parts + 1
  | alternatives arms => depthOfAll arms + 1

def depthOfAll : List Pattern → Nat
  | [] => 0
  | p :: rest => max p.depth (depthOfAll rest)

end

def depthLimit : Nat := 250

/-- The pattern can be used, starting in the mode of Unicode. -/
def isUsable (p : Pattern) : Bool :=
  p.depth ≤ depthLimit && (p.modeAfter? .unicode).isSome

end Pattern

end ClassAnnotator
