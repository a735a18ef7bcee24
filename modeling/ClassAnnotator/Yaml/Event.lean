import ClassAnnotator.Association
import ClassAnnotator.Yaml.Token

/-! # Events of a YAML document

The events list the nodes of a document in order, with a start and an end for lists and tables.
Nodes that are left out become empty plain scalars.
-/

namespace ClassAnnotator.Yaml

/-- What may stand in front of the content of a node. -/
structure NodeProperties where
  anchor : Option String
  /-- The tag with its handle resolved. -/
  tag : Option TagText
  deriving DecidableEq, Repr

def NodeProperties.bare : NodeProperties := ⟨none, none⟩

inductive Event where
  | aliasOf (name : String)
  | scalar (properties : NodeProperties) (text : String) (plain : Bool)
  | listStart (properties : NodeProperties)
  | listEnd
  | tableStart (properties : NodeProperties)
  | tableEnd
  deriving DecidableEq, Repr

namespace Event

def empty : Event := .scalar .bare "" true

/-- What the handles of tags stand for. -/
abbrev Handles := List (List Char × TagText)

def standardHandles : Handles :=
  [(['!'], [some '!']), (['!', '!'], "tag:yaml.org,2002:".toList.map some)]

/-- The full text of a tag, unless its handle is not declared. -/
def resolve? (handles : Handles) (t : Tag) : Option TagText :=
  if t.handle.isEmpty then some t.suffix
  else (Association.get? t.handle handles).map (· ++ t.suffix)

/-- The anchor and the tag of a node, in either order, and the tokens after them. -/
def properties? (handles : Handles) : List Token → Option (NodeProperties × List Token)
  | .anchor a :: .tag t :: r => (resolve? handles t).map fun tag => (⟨some a, some tag⟩, r)
  | .tag t :: .anchor a :: r => (resolve? handles t).map fun tag => (⟨some a, some tag⟩, r)
  | .anchor a :: r => some (⟨some a, none⟩, r)
  | .tag t :: r => (resolve? handles t).map fun tag => (⟨none, some tag⟩, r)
  | ts => some (.bare, ts)

/-- The events so far, in reverse order, and the tokens to come. -/
abbrev Progress := Option (List Event × List Token)

/-- The next token ends the entry of a block. -/
def endsBlockNode : List Token → Bool
  | .key :: _ => true
  | .value :: _ => true
  | .blockEnd :: _ => true
  | _ => false

/-- The next token ends the entry of a list in a block. -/
def endsListNode (ts : List Token) : Bool :=
  match ts with
  | .blockEntry :: _ => true
  | .blockEnd :: _ => true
  | _ => false

/-- The next token ends an entry between brackets that end with `close`. -/
def endsFlowNode (close : Token) : List Token → Bool
  | .flowEntry :: _ => true
  | t :: _ => t == close
  | [] => false

mutual

/-- A node. A list at the column of the table around it has no block of its own. -/
def node? (handles : Handles) (fuel : Nat) (inBlock inTable : Bool) (done : List Event)
    (ts : List Token) : Progress :=
  match fuel with
  | 0 => none
  | fuel + 1 =>
    match ts with
    | .aliasOf name :: r => some (.aliasOf name :: done, r)
    | ts =>
      match properties? handles ts with
      | none => none
      | some (p, ts) =>
        match ts with
        | .scalar text plain :: r => some (.scalar p text plain :: done, r)
        | .flowListStart :: r => flowItems? handles fuel true (.listStart p :: done) r
        | .flowTableStart :: r => flowMembers? handles fuel true (.tableStart p :: done) r
        | .blockListStart :: r =>
          if inBlock then blockItems? handles fuel (.listStart p :: done) r
          else emptyNode? p done ts
        | .blockTableStart :: r =>
          if inBlock then blockMembers? handles fuel (.tableStart p :: done) r
          else emptyNode? p done ts
        | .blockEntry :: _ =>
          if inTable then looseItems? handles fuel (.listStart p :: done) ts
          else emptyNode? p done ts
        | ts => emptyNode? p done ts

/-- A node without content; only an anchor or a tag can stand for it. -/
def emptyNode? (p : NodeProperties) (done : List Event) (ts : List Token) : Progress :=
  if p == .bare then none else some (.scalar p "" true :: done, ts)

def blockItems? (handles : Handles) (fuel : Nat) (done : List Event) (ts : List Token) :
    Progress :=
  match fuel with
  | 0 => none
  | fuel + 1 =>
    match ts with
    | .blockEntry :: r =>
      if endsListNode r then blockItems? handles fuel (empty :: done) r
      else
        match node? handles fuel true false done r with
        | none => none
        | some (done, r) => blockItems? handles fuel done r
    | .blockEnd :: r => some (.listEnd :: done, r)
    | _ => none

/-- The items of a list in the block of a table. -/
def looseItems? (handles : Handles) (fuel : Nat) (done : List Event) (ts : List Token) :
    Progress :=
  match fuel with
  | 0 => none
  | fuel + 1 =>
    match ts with
    | .blockEntry :: r =>
      if endsListNode r || endsBlockNode r then looseItems? handles fuel (empty :: done) r
      else
        match node? handles fuel true false done r with
        | none => none
        | some (done, r) => looseItems? handles fuel done r
    | ts => some (.listEnd :: done, ts)

def blockMembers? (handles : Handles) (fuel : Nat) (done : List Event) (ts : List Token) :
    Progress :=
  match fuel with
  | 0 => none
  | fuel + 1 =>
    match ts with
    | .key :: r =>
      if endsBlockNode r then blockValue? handles fuel (empty :: done) r
      else
        match node? handles fuel true true done r with
        | none => none
        | some (done, r) => blockValue? handles fuel done r
    | .blockEnd :: r => some (.tableEnd :: done, r)
    | _ => none

/-- The value of a member of a table in a block, and the members after it. -/
def blockValue? (handles : Handles) (fuel : Nat) (done : List Event) (ts : List Token) :
    Progress :=
  match fuel with
  | 0 => none
  | fuel + 1 =>
    match ts with
    | .value :: r =>
      if endsBlockNode r then blockMembers? handles fuel (empty :: done) r
      else
        match node? handles fuel true true done r with
        | none => none
        | some (done, r) => blockMembers? handles fuel done r
    | ts => blockMembers? handles fuel (empty :: done) ts

def flowItems? (handles : Handles) (fuel : Nat) (first : Bool) (done : List Event)
    (ts : List Token) : Progress :=
  match fuel with
  | 0 => none
  | fuel + 1 =>
    let item? (ts : List Token) : Progress :=
      match ts with
      | .flowListEnd :: r => some (.listEnd :: done, r)
      | .key :: r => flowPair? handles fuel (.tableStart .bare :: done) r
      | ts =>
        match node? handles fuel false false done ts with
        | none => none
        | some (done, r) => flowItems? handles fuel false done r
    match ts with
    | .flowListEnd :: r => some (.listEnd :: done, r)
    | ts =>
      if first then item? ts
      else
        match ts with
        | .flowEntry :: r => item? r
        | _ => none

/-- A table of one member that is an item of a list in brackets. A token that cannot start the key
is passed over. -/
def flowPair? (handles : Handles) (fuel : Nat) (done : List Event) (ts : List Token) : Progress :=
  match fuel with
  | 0 => none
  | fuel + 1 =>
    let afterKey? (done : List Event) (ts : List Token) : Progress :=
      match ts with
      | .value :: r =>
        if endsFlowNode .flowListEnd r then
          flowItems? handles fuel false (.tableEnd :: empty :: done) r
        else
          match node? handles fuel false false done r with
          | none => none
          | some (done, r) => flowItems? handles fuel false (.tableEnd :: done) r
      | ts => flowItems? handles fuel false (.tableEnd :: empty :: done) ts
    match ts with
    | .value :: r => afterKey? (empty :: done) r
    | ts =>
      if endsFlowNode .flowListEnd ts then afterKey? (empty :: done) ts.tail
      else
        match node? handles fuel false false done ts with
        | none => none
        | some (done, r) => afterKey? done r

def flowMembers? (handles : Handles) (fuel : Nat) (first : Bool) (done : List Event)
    (ts : List Token) : Progress :=
  match fuel with
  | 0 => none
  | fuel + 1 =>
    let afterKey? (done : List Event) (ts : List Token) : Progress :=
      match ts with
      | .value :: r =>
        if endsFlowNode .flowTableEnd r then flowMembers? handles fuel false (empty :: done) r
        else
          match node? handles fuel false false done r with
          | none => none
          | some (done, r) => flowMembers? handles fuel false done r
      | ts => flowMembers? handles fuel false (empty :: done) ts
    let member? (ts : List Token) : Progress :=
      match ts with
      | .flowTableEnd :: r => some (.tableEnd :: done, r)
      | .key :: .value :: r => afterKey? (empty :: done) (.value :: r)
      | .key :: r =>
        if endsFlowNode .flowTableEnd r then afterKey? (empty :: done) r
        else
          match node? handles fuel false false done r with
          | none => none
          | some (done, r) => afterKey? done r
      | ts =>
        match node? handles fuel false false done ts with
        | none => none
        | some (done, r) => flowMembers? handles fuel false (empty :: done) r
    match ts with
    | .flowTableEnd :: r => some (.tableEnd :: done, r)
    | ts =>
      if first then member? ts
      else
        match ts with
        | .flowEntry :: r => member? r
        | _ => none

end

/-! ## Documents -/

structure Directives where
  versioned : Bool
  handles : Handles

def isSupported (major minor : Nat) : Bool := major == 1 && (minor == 1 || minor == 2)

/-- Read directives; none may stand twice. -/
def directives? (d : Directives) : List Token → Option (Directives × List Token)
  | .version major minor :: r =>
    if d.versioned || !isSupported major minor then none
    else directives? { d with versioned := true } r
  | .tagDirective handle lead :: r =>
    if (Association.get? handle d.handles).isSome then none
    else directives? { d with handles := d.handles ++ [(handle, lead)] } r
  | ts => some (d, ts)

/-- The node of a document that was started by a marker; it may be left out. -/
def content? (handles : Handles) (ts : List Token) : Progress :=
  match ts with
  | [] => some ([empty], ts)
  | .documentStart :: _ => some ([empty], ts)
  | .documentEnd :: _ => some ([empty], ts)
  | .version .. :: _ => some ([empty], ts)
  | .tagDirective .. :: _ => some ([empty], ts)
  | ts => node? handles (4 * ts.length + 4) true false [] ts

/-- The end of a text after a document: nothing but end markers. -/
def endsText (ts : List Token) : Bool :=
  ts.all (· == .documentEnd)

def startsExplicitly : List Token → Bool
  | .documentStart :: _ => true
  | .version .. :: _ => true
  | .tagDirective .. :: _ => true
  | _ => false

/-- The events of the one document of a text; an empty text has no events. -/
def ofTokens? (ts : List Token) : Option (List Event) :=
  if ts.isEmpty then some []
  else
    let read : Progress :=
      if startsExplicitly ts then
        match directives? ⟨false, []⟩ ts with
        | some (d, .documentStart :: r) => content? (d.handles ++ standardHandles) r
        | _ => none
      else node? standardHandles (4 * ts.length + 4) true false [] ts
    match read with
    | some (done, rest) => if endsText rest then some done.reverse else none
    | none => none

end Event

end ClassAnnotator.Yaml
