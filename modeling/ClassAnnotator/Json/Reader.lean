import ClassAnnotator.Document.Basic
import ClassAnnotator.Json.Token

/-! # Reading a document from a JSON text

The tokens are read one at a time by a machine with a stack of open containers. Of members with
one name, the last gives the value and the first gives the place.
-/

namespace ClassAnnotator.Json

inductive Frame where
  /-- The elements before the value, in reverse order. -/
  | list (done : List Document)
  /-- The members before the value, and its name. -/
  | table (done : List (String × Document)) (name : String)

inductive ReadState where
  | value (outer : List Frame)
  /-- After the opening bracket of a list. -/
  | listStart (outer : List Frame)
  | afterElement (done : List Document) (outer : List Frame)
  /-- Before a name; only after the opening brace may the table end here. -/
  | memberName (first : Bool) (done : List (String × Document)) (outer : List Frame)
  | colon (done : List (String × Document)) (name : String) (outer : List Frame)
  | afterMember (done : List (String × Document)) (outer : List Frame)
  | finished (d : Document)

/-- The greatest number of containers that may be open at a time. -/
def depthLimit : Nat := 127

namespace ReadState

def complete (d : Document) : List Frame → ReadState
  | [] => finished d
  | .list done :: outer => afterElement (d :: done) outer
  | .table done name :: outer => afterMember (Association.put name d done) outer

def readValue? (outer : List Frame) : Token → Option ReadState
  | .null => some (complete .null outer)
  | .bool b => some (complete (.bool b) outer)
  | .number n => some (complete (.number n) outer)
  | .text s => some (complete (.text s) outer)
  | .openList => if outer.length < depthLimit then some (listStart outer) else none
  | .openTable => if outer.length < depthLimit then some (memberName true [] outer) else none
  | _ => none

def step? (s : ReadState) (t : Token) : Option ReadState :=
  match s, t with
  | value outer, t => readValue? outer t
  | listStart outer, .closeList => some (complete (.list []) outer)
  | listStart outer, t => readValue? (.list [] :: outer) t
  | afterElement done outer, .comma => some (value (.list done :: outer))
  | afterElement done outer, .closeList => some (complete (.list done.reverse) outer)
  | memberName _ done outer, .text s => some (colon done s outer)
  | memberName true done outer, .closeTable => some (complete (.table done) outer)
  | colon done name outer, .colon => some (value (.table done name :: outer))
  | afterMember done outer, .comma => some (memberName false done outer)
  | afterMember done outer, .closeTable => some (complete (.table done) outer)
  | _, _ => none

def run? (s : ReadState) (tokens : List Token) : Option Document :=
  match tokens.foldlM step? s with
  | some (finished d) => some d
  | _ => none

end ReadState

def read? (s : String) : Option Document :=
  (tokens? s.toList).bind (ReadState.value []).run?

end ClassAnnotator.Json
