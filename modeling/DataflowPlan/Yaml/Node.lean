import DataflowPlan.Yaml.Token

/-!
Nodes: the scalars, sequences and mappings of a document. An alias holds the number of an anchor,
which is looked up only when somebody asks what the alias stands for.
-/

namespace DataflowPlan.Yaml

inductive Node
  | scalar (tag : Option Tag) (style : Style) (text : String)
  | sequence (tag : Option Tag) (items : List Node)
  | mapping (tag : Option Tag) (entries : List (Node × Node))
  | alias (number : Nat)

namespace Node

/-- Where nothing is written. -/
def empty : Node := .scalar none .plain ""

instance : Inhabited Node where
  default := empty

/-- Nothing is written there, apart from a tag. -/
def isEmpty : Node → Bool
  | .scalar _ .plain text => text.isEmpty
  | .scalar .. | .sequence .. | .mapping .. | .alias _ => false

mutual

/-- The size of a node: its scalars, its aliases, and two for each collection. -/
def size : Node → Nat
  | .scalar .. | .alias _ => 1
  | .sequence _ items => sizeOfItems items + 2
  | .mapping _ entries => sizeOfEntries entries + 2

def sizeOfItems : List Node → Nat
  | [] => 0
  | n :: rest => n.size + sizeOfItems rest

def sizeOfEntries : List (Node × Node) → Nat
  | [] => 0
  | (k, v) :: rest => k.size + v.size + sizeOfEntries rest

end

end Node

-----------------------------------------------------------------------------------------------
-- Anchors

structure Anchor where
  name : String
  number : Nat
  node : Node

/-- The anchors so far. -/
structure Anchors where
  /-- In the order in which their nodes begin. -/
  all : List Anchor
  /-- The number of different names among them. -/
  names : Nat

namespace Anchors

def empty : Anchors := ⟨[], 0⟩

/-- The anchors with one whose node begins. Its number is that of the different names so far; a
name that is given again does not add to them, so that the next new name gets the same number.
-/
def begin (anchors : Anchors) (name : String) : Anchors :=
  { all := anchors.all ++ [⟨name, anchors.names, .empty⟩]
    names := if anchors.all.any (·.name == name) then anchors.names else anchors.names + 1 }

/-- The anchors with the node of the one at a place. -/
def finish (anchors : Anchors) (place : Nat) (node : Node) : Anchors :=
  { anchors with all := anchors.all.modify place fun anchor => { anchor with node } }

/-- The number that a name was given last. -/
def number? (anchors : Anchors) (name : String) : Option Nat :=
  (anchors.all.reverse.find? (·.name == name)).map Anchor.number

/-- The node that a number was given to last. -/
def node? (anchors : Anchors) (number : Nat) : Option Node :=
  (anchors.all.reverse.find? (·.number == number)).map Anchor.node

end Anchors

/-- A part of a document that was read from the front of tokens. -/
abbrev Parsed (α : Type) := Option (α × Anchors × List Token)

def Parsed.map {α β : Type} (parsed : Parsed α) (f : α → β) : Parsed β :=
  Option.map (fun (a, anchors, tokens) => (f a, anchors, tokens)) parsed

-----------------------------------------------------------------------------------------------
-- Reading

/-- What stands in front of a node. -/
structure Properties where
  anchor : Option String
  tag : Option Tag

namespace Properties

/-- At most one anchor and one tag, in any order. -/
def read : List Token → Properties × List Token
  | .anchor name :: .tag tag :: rest => (⟨some name, some tag⟩, rest)
  | .tag tag :: .anchor name :: rest => (⟨some name, some tag⟩, rest)
  | .anchor name :: rest => (⟨some name, none⟩, rest)
  | .tag tag :: rest => (⟨none, some tag⟩, rest)
  | tokens => (⟨none, none⟩, tokens)

def areGiven (p : Properties) : Bool :=
  p.anchor.isSome || p.tag.isSome

/-- A scalar that is written out. A blank tag does not count. -/
def scalar (p : Properties) (style : Style) (text : String) : Node :=
  .scalar (p.tag.filter (· ≠ .blank)) style text

end Properties

/-- Where a node stands. -/
inductive Place
  /-- Between brackets. -/
  | flow
  /-- In a block sequence, or all of the document. -/
  | block
  /-- A key or value of a block mapping, where the items of a sequence may stand at the column of
  the key.
  -/
  | entry
deriving DecidableEq

/-- A key or a value comes next that nothing is written for. -/
def isMissing (ends : List Token) : List Token → Bool
  | [] => false
  | token :: _ => ends.contains token

mutual

/-- A node with what stands in front of it. Each step of `fuel` takes a token or leads to a part of
what comes next.
-/
def readNode (place : Place) : Nat → Anchors → List Token → Parsed Node
  | 0, _, _ => none
  | fuel + 1, anchors, tokens =>
    match tokens with
    | .alias name :: rest => (anchors.number? name).map fun number => (.alias number, anchors, rest)
    | _ =>
      let (properties, rest) := Properties.read tokens
      match properties.anchor with
      | some name =>
        match readContent place properties fuel (anchors.begin name) rest with
        | some (n, inner, rest) => some (n, inner.finish anchors.all.length n, rest)
        | none => none
      | none => readContent place properties fuel anchors rest

/-- A node after what stands in front of it. If something does, the node may be left out. -/
def readContent (place : Place) (properties : Properties)
    : Nat → Anchors → List Token → Parsed Node
  | 0, _, _ => none
  | fuel + 1, anchors, tokens =>
    let tag := properties.tag
    let nothing : Parsed Node :=
      if properties.areGiven then some (.scalar tag .plain "", anchors, tokens) else none
    match tokens with
    | .scalar style text :: rest => some (properties.scalar style text, anchors, rest)
    | .flowSequence :: rest => (readFlowItems fuel true anchors rest).map (.sequence tag)
    | .flowMapping :: rest => (readFlowEntries fuel true anchors rest).map (.mapping tag)
    | .blockSequence :: rest =>
      if place = .flow then nothing else (readItems fuel anchors rest).map (.sequence tag)
    | .blockMapping :: rest =>
      if place = .flow then nothing else (readEntries fuel anchors rest).map (.mapping tag)
    | .item :: _ =>
      if place = .entry then (readLooseItems fuel anchors tokens).map (.sequence tag) else nothing
    | _ => nothing

/-- A node, or an empty one in front of the tokens that end its place. -/
def readPart (place : Place) (ends : List Token) : Nat → Anchors → List Token → Parsed Node
  | 0, _, _ => none
  | fuel + 1, anchors, tokens =>
    if isMissing ends tokens then some (.empty, anchors, tokens)
    else readNode place fuel anchors tokens

/-- The items of a block sequence. -/
def readItems : Nat → Anchors → List Token → Parsed (List Node)
  | 0, _, _ => none
  | fuel + 1, anchors, tokens =>
    match tokens with
    | .item :: rest =>
      match readPart .block [.item, .blockEnd] fuel anchors rest with
      | some (n, anchors, rest) => (readItems fuel anchors rest).map (n :: ·)
      | none => none
    | .blockEnd :: rest => some ([], anchors, rest)
    | _ => none

/-- The items of a sequence that stands at the column of its key. -/
def readLooseItems : Nat → Anchors → List Token → Parsed (List Node)
  | 0, _, _ => none
  | fuel + 1, anchors, tokens =>
    match tokens with
    | .item :: rest =>
      match readPart .block [.item, .key, .value, .blockEnd] fuel anchors rest with
      | some (n, anchors, rest) => (readLooseItems fuel anchors rest).map (n :: ·)
      | none => none
    | _ => some ([], anchors, tokens)

/-- The entries of a block mapping. -/
def readEntries : Nat → Anchors → List Token → Parsed (List (Node × Node))
  | 0, _, _ => none
  | fuel + 1, anchors, tokens =>
    match tokens with
    | .blockEnd :: rest => some ([], anchors, rest)
    | .key :: rest =>
      match readPart .entry [.key, .value, .blockEnd] fuel anchors rest with
      | some (k, anchors, rest) => readValue k fuel anchors rest
      | none => none
    | _ => none

/-- The value of a key in a block mapping, and the entries after it. -/
def readValue (k : Node) : Nat → Anchors → List Token → Parsed (List (Node × Node))
  | 0, _, _ => none
  | fuel + 1, anchors, tokens =>
    match tokens with
    | .value :: rest =>
      match readPart .entry [.key, .value, .blockEnd] fuel anchors rest with
      | some (v, anchors, rest) => (readEntries fuel anchors rest).map ((k, v) :: ·)
      | none => none
    | _ => (readEntries fuel anchors tokens).map ((k, .empty) :: ·)

/-- The items of a sequence in brackets, the first one without a comma before it. -/
def readFlowItems : Nat → (isFirst : Bool) → Anchors → List Token → Parsed (List Node)
  | 0, _, _, _ => none
  | fuel + 1, isFirst, anchors, tokens =>
    match isFirst, tokens with
    | _, .flowSequenceEnd :: rest => some ([], anchors, rest)
    | false, .separator :: .flowSequenceEnd :: rest => some ([], anchors, rest)
    | false, .separator :: rest => readFlowItem fuel anchors rest
    | false, _ => none
    | true, _ => readFlowItem fuel anchors tokens

/-- One item of a sequence in brackets and those after it. A key makes an item that is a mapping
with one entry.
-/
def readFlowItem : Nat → Anchors → List Token → Parsed (List Node)
  | 0, _, _ => none
  | fuel + 1, anchors, tokens =>
    match tokens with
    | .key :: rest =>
      match readPair fuel anchors rest with
      | some (entry, anchors, rest) =>
        (readFlowItems fuel false anchors rest).map (.mapping none [entry] :: ·)
      | none => none
    | _ =>
      match readNode .flow fuel anchors tokens with
      | some (n, anchors, rest) => (readFlowItems fuel false anchors rest).map (n :: ·)
      | none => none

/-- The only entry of a mapping without braces. The token that an empty key stands in front of
counts as read.
-/
def readPair : Nat → Anchors → List Token → Parsed (Node × Node)
  | 0, _, _ => none
  | fuel + 1, anchors, tokens =>
    let ends : List Token := [.value, .separator, .flowSequenceEnd]
    let key :=
      if isMissing ends tokens then some (.empty, anchors, tokens.drop 1)
      else readNode .flow fuel anchors tokens
    match key with
    | some (k, anchors, .value :: rest) =>
      (readPart .flow [.separator, .flowSequenceEnd] fuel anchors rest).map (k, ·)
    | some (k, anchors, rest) => some ((k, .empty), anchors, rest)
    | none => none

/-- The entries of a mapping in braces, the first one without a comma before it. -/
def readFlowEntries : Nat → (isFirst : Bool) → Anchors → List Token
    → Parsed (List (Node × Node))
  | 0, _, _, _ => none
  | fuel + 1, isFirst, anchors, tokens =>
    match isFirst, tokens with
    | _, .flowMappingEnd :: rest => some ([], anchors, rest)
    | false, .separator :: .flowMappingEnd :: rest => some ([], anchors, rest)
    | false, .separator :: rest => readFlowEntry fuel anchors rest
    | false, _ => none
    | true, _ => readFlowEntry fuel anchors tokens

/-- One entry of a mapping in braces and those after it. What is no key has no value. -/
def readFlowEntry : Nat → Anchors → List Token → Parsed (List (Node × Node))
  | 0, _, _ => none
  | fuel + 1, anchors, tokens =>
    match tokens with
    | .key :: rest =>
      match readPart .flow [.value, .separator, .flowMappingEnd] fuel anchors rest with
      | some (k, anchors, .value :: rest) =>
        match readPart .flow [.separator, .flowMappingEnd] fuel anchors rest with
        | some (v, anchors, rest) => (readFlowEntries fuel false anchors rest).map ((k, v) :: ·)
        | none => none
      | some (k, anchors, rest) => (readFlowEntries fuel false anchors rest).map ((k, .empty) :: ·)
      | none => none
    | _ =>
      match readNode .flow fuel anchors tokens with
      | some (k, anchors, rest) => (readFlowEntries fuel false anchors rest).map ((k, .empty) :: ·)
      | none => none

end

-----------------------------------------------------------------------------------------------
-- Documents

/-- A node with the anchors in it. -/
structure Document where
  root : Node
  anchors : Anchors

namespace Document

def isDirective : Token → Bool
  | .directive _ => true
  | _ => false

/-- The node of the first document. After a mark it may be left out; directives need the mark. -/
def first? (tokens : List Token) : Parsed Node :=
  let fuel := 6 * tokens.length + 6
  match tokens.dropWhile isDirective with
  | [.documentStart] => some (.empty, .empty, [])
  | .documentStart :: rest =>
    readPart .block [.documentStart, .documentEnd] fuel .empty rest
  | _ => if tokens.any isDirective then none else readNode .block fuel .empty tokens

/-- The only document. -/
def ofTokens? (tokens : List Token) : Option Document :=
  match first? tokens with
  | some (root, anchors, rest) =>
    if rest.all (· == .documentEnd) then some ⟨root, anchors⟩ else none
  | none => none

/-- The only document that a text writes. -/
def ofText? (text : String) : Option Document :=
  (Token.ofText? text).bind ofTokens?

end Document

end DataflowPlan.Yaml
