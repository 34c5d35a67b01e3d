import DataflowPlan.Json.Number

/-!
JSON values, with the members of an object in the order in which they stand. A value may be there
although it cannot be read: as long as nobody asks for it, that is no fault.
-/

namespace DataflowPlan.Json

inductive Value
  | null
  | boolean (b : Bool)
  | number (n : Number)
  | text (s : String)
  | array (items : List Value)
  | object (members : List (String × Value))
  /-- A text that holds half a character, or an object with such a name. -/
  | unreadable

namespace Value

instance : Inhabited Value where
  default := .null

/-- A natural number. -/
def natural (n : Nat) : Value :=
  .number (.natural n)

/-- A floating-point number; one that is undefined or infinite is null. -/
def float (x : Float) : Value :=
  match Number.ofFloat? x with
  | some n => .number n
  | none => .null

/-- A floating-point number; one that is undefined or infinite is a name. -/
def floatOrName (x : Float) : Value :=
  if x.isNaN then .text "NaN"
  else if x.isInf then .text (if 0.0 < x then "inf" else "-inf")
  else .float x

/-- A value that may be missing, null when it is. -/
def optional {α : Type} (encode : α → Value) : Option α → Value
  | some a => encode a
  | none => .null

/-- A list of texts. -/
def texts (items : List String) : Value :=
  .array (items.map .text)

/-- A list of values. -/
def list {α : Type} (encode : α → Value) (items : List α) : Value :=
  .array (items.map encode)

-----------------------------------------------------------------------------------------------
-- Shape

mutual

/-- The value and all its parts can be read, numbers being in range. -/
def isReadable : Value → Bool
  | .null | .boolean _ | .text _ => true
  | .number n => n.isReadable
  | .array items => areReadable items
  | .object members => haveReadable members
  | .unreadable => false

def areReadable : List Value → Bool
  | [] => true
  | item :: rest => item.isReadable && areReadable rest

def haveReadable : List (String × Value) → Bool
  | [] => true
  | (_, value) :: rest => value.isReadable && haveReadable rest

end

mutual

/-- The levels of arrays and objects. -/
def height : Value → Nat
  | .array items => heightOfItems items + 1
  | .object members => heightOfMembers members + 1
  | .null | .boolean _ | .number _ | .text _ | .unreadable => 0

/-- The levels of the highest item. -/
def heightOfItems : List Value → Nat
  | [] => 0
  | item :: rest => max item.height (heightOfItems rest)

/-- The levels of the highest member. -/
def heightOfMembers : List (String × Value) → Nat
  | [] => 0
  | (_, value) :: rest => max value.height (heightOfMembers rest)

end

/-- The first member of an object with the name. -/
def member? (name : String) : Value → Option Value
  | .object members => (members.find? (·.1 == name)).map Prod.snd
  | _ => none

end Value

end DataflowPlan.Json
