import DataflowPlan.Json.Value
import DataflowPlan.Record

/-!
Taking values apart: each decoder accepts exactly the form that its type allows. A record is an
object, whose members are found by name, or a list, whose items are the fields in their order.
-/

namespace DataflowPlan.Json

namespace Value

def text? : Value → Option String
  | .text s => some s
  | _ => none

def boolean? : Value → Option Bool
  | .boolean b => some b
  | _ => none

/-- An integer of at most 64 bits without a sign. -/
def word? : Value → Option Nat
  | .number n => n.word?
  | _ => none

/-- An integer of at most 16 bits without a sign. -/
def port? (v : Value) : Option Nat :=
  v.word?.filter (· < 65536)

/-- An integer of 8 bits without a sign. -/
def byte? (v : Value) : Option UInt8 :=
  (v.word?.filter (· < 256)).map Nat.toUInt8

/-- A floating-point number; integers are taken as such. -/
def float? : Value → Option Float
  | .number n => n.float?
  | _ => none

/-- The floating-point number that a name stands for. -/
def namedFloat? : Value → Option Float
  | .text "NaN" => some (0.0 / 0.0)
  | .text "inf" => some (1.0 / 0.0)
  | .text "-inf" => some (-1.0 / 0.0)
  | _ => none

/-- The name of a constant: the text alone, or the only member of an object, holding null. -/
def constant? : Value → Option String
  | .text s => some s
  | .object [(name, .null)] => some name
  | _ => none

/-- The name of a constant in a record with a tag, where an empty object may stand for null. -/
def taggedConstant? : Value → Option String
  | .object [(name, .object [])] => some name
  | v => v.constant?

/-- A list whose items all have the form. -/
def list? {α : Type} (decode : Value → Option α) : Value → Option (List α)
  | .array items => items.mapM decode
  | _ => none

/-- An object whose members' values all have the form, in the order in which they stand. -/
def members? {α : Type} (decode : Value → Option α) : Value → Option (List (String × α))
  | .object members =>
    members.mapM fun (name, value) => (decode value).map fun a => (name, a)
  | _ => none

/-- Null, or a value that has the form. -/
def optional? {α : Type} (decode : Value → Option α) : Value → Option (Option α)
  | .null => some none
  | v => (decode v).map some

end Value

-----------------------------------------------------------------------------------------------
-- Records

/-- The fields of a record, in the order of their names. -/
def Value.fields? (names : List String) : Value → Option (List (Field Value))
  | .object members => Field.ofMembers? names members
  | .array items => Field.ofItems? names items
  | _ => none

end DataflowPlan.Json
