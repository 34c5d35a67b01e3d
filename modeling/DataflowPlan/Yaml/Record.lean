import DataflowPlan.Record
import DataflowPlan.Yaml.Value

/-!
Decoders for the parts of a document: each accepts exactly the form that its type allows. Any scalar
is a text, while numbers and truth values have to be plain or literal under their tag; where nothing
is written there is an empty list or a record without fields.
-/

namespace DataflowPlan.Yaml.Node

variable {α : Type}

/-- The text of any scalar. -/
def text (n : Node) : Decoding String := do
  match ← n.follow with
  | .scalar _ _ text => pure text
  | _ => failure

/-- The text of a scalar that can be read as a value under the tag. -/
def literal (expected : Tag) (n : Node) : Decoding String := do
  match ← n.follow with
  | .scalar _ .plain text => pure text
  | .scalar tag .literal text => if tag = some expected then pure text else failure
  | _ => failure

def boolean (n : Node) : Decoding Bool := do
  Yaml.boolean? (← n.literal .boolean)

/-- An integer of at most 64 bits without a sign. -/
def word (n : Node) : Decoding Nat := do
  (natural? (← n.literal .integer).toList).filter (· ≤ Decimal.maxWord)

/-- The name of a constant: a text, or a tag of the document's own over null. -/
def constant (n : Node) : Decoding String := do
  match ← n.follow with
  | .scalar tag style text =>
    match tag.bind Tag.own? with
    | none => pure text
    | some name => if style = .plain && isNull text then pure name else failure
  | _ => failure

/-- Whether the node is null. The tag of null on anything else is a fault. -/
def isNull? : Node → Option Bool
  | .scalar none .plain text => some (isNull text)
  | .scalar (some tag) .plain text =>
    if tag ≠ .null then some false else if namesNull text then some true else none
  | _ => some false

/-- Null, or a node that has the form. -/
def optional (decode : Node → Decoding α) (n : Node) : Decoding (Option α) := do
  let n ← n.follow
  if ← n.isNull? then pure none else some <$> decode n

/-- A sequence whose items all have the form. -/
def list (decode : Node → Decoding α) (n : Node) : Decoding (List α) := do
  match ← n.follow with
  | .sequence _ items => items.mapM decode
  | n => if n.isEmpty then pure [] else failure

/-- The most collections inside each other. -/
def levels : Nat := 128

/-- A mapping as values, with no key twice, inside `outer` other collections. -/
def settings (outer : Nat) (n : Node) : Decoding (List (Value × Value)) := do
  let n ← n.follow
  if n.isEmpty then pure []
  else
    match n with
    | .mapping _ entries =>
      match ← Value.ofNode (levels - outer) (.mapping none entries) with
      | .mapping entries => pure entries
      | _ => failure
    | _ => failure

/-- The fields of a record, in the order of their names. All keys of a mapping must be scalars. -/
def fields (names : List String) (n : Node) : Decoding (List (Field Node)) := do
  match ← n.follow with
  | .mapping _ entries =>
    let members ← entries.mapM fun (k, v) => return (← k.text, v)
    Field.ofMembers? names members
  | n => if n.isEmpty then Field.ofMembers? names [] else failure

end DataflowPlan.Yaml.Node
