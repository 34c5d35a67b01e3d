import DataflowPlan.Decimal.Reader
import DataflowPlan.Yaml.Decoding

/-!
Values: what nodes stand for when nothing else is asked of them. A tag, or else the form of a plain
scalar, decides between null, truth values, numbers and text.
-/

namespace DataflowPlan.Yaml

-----------------------------------------------------------------------------------------------
-- Plain scalars

/-- A name of null. -/
def namesNull (text : String) : Bool :=
  ["~", "null", "Null", "NULL"].contains text

/-- A plain scalar that is null: a name of it, or nothing. -/
def isNull (text : String) : Bool :=
  text.isEmpty || namesNull text

def boolean? : String → Option Bool
  | "true" | "True" | "TRUE" => some true
  | "false" | "False" | "FALSE" => some false
  | _ => none

/-- Several digits, the first of them a zero, and perhaps a sign: no number. -/
def isPadded (text : List Char) : Bool :=
  let ds :=
    match text with
    | '-' :: rest | '+' :: rest => rest
    | _ => text
  ds.length > 1 && ds.head? == some '0' && ds.all Char.isDigit

/-- Digits in a radix that stands in front of them. -/
def prefixed? : List Char → Option Nat
  | '0' :: 'x' :: ds => Decimal.natOfDigits? 16 ds
  | '0' :: 'o' :: ds => Decimal.natOfDigits? 8 ds
  | '0' :: 'b' :: ds => Decimal.natOfDigits? 2 ds
  | _ => none

/-- A natural number, after an optional plus sign. -/
def natural? (text : List Char) : Option Nat :=
  let ds :=
    match text with
    | '+' :: rest => rest
    | _ => text
  match prefixed? ds with
  | some n => some n
  | none => if isPadded text then none else Decimal.natOfDigits? 10 ds

/-- An integer. -/
def integer? (text : List Char) : Option Int :=
  match natural? text, text with
  | some n, _ => some n
  | none, '-' :: ds =>
    match prefixed? ds with
    | some n => some (-n)
    | none => if isPadded text then none else (Decimal.natOfDigits? 10 ds).map fun n => -n
  | none, _ => none

/-- A finite decimal, or a name of infinity or of an undefined number with a point before it. -/
def float? (text : List Char) : Option Float :=
  let unsigned :=
    match text with
    | '+' :: '+' :: _ | '+' :: '-' :: _ => none
    | '+' :: rest => some rest
    | _ => some text
  if [".inf", ".Inf", ".INF"].contains (String.ofList (unsigned.getD [])) then some (1.0 / 0.0)
  else if ["-.inf", "-.Inf", "-.INF"].contains (String.ofList text) then some (-1.0 / 0.0)
  else if [".nan", ".NaN", ".NAN"].contains (String.ofList text) then some (0.0 / 0.0)
  else (unsigned.bind Decimal.float?).filter Float.isFinite

-----------------------------------------------------------------------------------------------
-- Values

inductive Value
  | null
  | boolean (b : Bool)
  | integer (n : Int)
  | float (x : Float)
  | text (s : String)
  | sequence (items : List Value)
  | mapping (entries : List (Value × Value))
  /-- A value under a tag that the document makes up. -/
  | tagged (name : String) (value : Value)

namespace Value

instance : Inhabited Value where
  default := .null

/-- The integers of 64 bits, with a sign or without. -/
def isWord (n : Int) : Bool :=
  -(Nat.pow 2 63) ≤ n && n < Nat.pow 2 64

/-- The integers of 128 bits, with a sign or without. -/
def isDoubleWord (n : Int) : Bool :=
  -(Nat.pow 2 127) ≤ n && n < Nat.pow 2 128

/-- The value of a plain scalar. An integer has 64 bits; there is no value for one of up to 128
bits, and one beyond that is taken as floating-point.
-/
def ofPlain? (s : String) : Option Value :=
  let other : Value :=
    match if isPadded s.toList then none else Yaml.float? s.toList with
    | some x => .float x
    | none => .text s
  if isNull s then some .null
  else
    match Yaml.boolean? s, integer? s.toList with
    | some b, _ => some (.boolean b)
    | none, some n =>
      if isWord n then some (.integer n) else if isDoubleWord n then none else some other
    | none, none => some other

mutual

/-- Values are the same as keys. Undefined numbers are the same, entries may be in any order. -/
def same : Value → Value → Bool
  | .null, .null => true
  | .boolean a, .boolean b => a == b
  | .integer a, .integer b => a == b
  | .float a, .float b => (a.isNaN && b.isNaN) || a == b
  | .text a, .text b => a == b
  | .sequence a, .sequence b => sameItems a b
  | .mapping a, .mapping b => a.length == b.length && sameEntries a b
  | .tagged m a, .tagged n b => m == n && same a b
  | _, _ => false

def sameItems : List Value → List Value → Bool
  | [], [] => true
  | a :: as, b :: bs => same a b && sameItems as bs
  | _, _ => false

/-- Every entry is one of the others. -/
def sameEntries : List (Value × Value) → List (Value × Value) → Bool
  | [], _ => true
  | (k, v) :: rest, entries =>
    entries.any (fun entry => same k entry.1 && same v entry.2) && sameEntries rest entries

end

/-- No two entries have the same key. -/
def haveDistinctKeys : List (Value × Value) → Bool
  | [] => true
  | (k, _) :: rest => rest.all (fun entry => !k.same entry.1) && haveDistinctKeys rest

/-- The value of a scalar under a tag that all documents share, or without one. -/
def ofScalar? (tag : Option Tag) (style : Style) (s : String) : Option Value :=
  match tag with
  | none => if style = .plain then ofPlain? s else some (.text s)
  | some tag =>
    if tag = .boolean then (Yaml.boolean? s).map .boolean
    else if tag = .integer then ((integer? s.toList).filter isWord).map .integer
    else if tag = .float then (Yaml.float? s.toList).map .float
    else if tag = .null then if namesNull s then some .null else none
    else some (.text s)

/-- The value under a tag that the document makes up, if there is one. It needs a name. -/
def underTag? (tag : Option Tag) (v : Value) : Option Value :=
  match tag.bind Tag.own? with
  | none => some v
  | some name => if name.isEmpty then none else some (.tagged name v)

/-- The value of a node with at most `levels` collections inside each other. No mapping in it has a
key twice.
-/
def ofNode : (levels : Nat) → Node → Decoding Value
  | levels, n => do
    match levels, ← n.follow with
    | _, .scalar tag style s =>
      let v ← ofScalar? (if (tag.bind Tag.own?).isSome then none else tag) style s
      underTag? tag v
    | levels + 1, .sequence tag items =>
      let vs ← items.mapM (ofNode levels)
      underTag? tag (.sequence vs)
    | levels + 1, .mapping tag entries =>
      let entries ← entries.mapM fun (k, v) => return (← ofNode levels k, ← ofNode levels v)
      if !haveDistinctKeys entries then failure
      underTag? tag (.mapping entries)
    | _, _ => failure

/-- The value without its tag. -/
def untagged : Value → Value
  | .tagged _ v => v
  | v => v

def text? : Value → Option String
  | .text s => some s
  | _ => none

/-- An integer of 64 bits without a sign; a tag does not count. -/
def word? (v : Value) : Option Nat :=
  match v.untagged with
  | .integer (.ofNat n) => some n
  | _ => none

/-- A floating-point number; integers are taken as such, and a tag does not count. -/
def float? (v : Value) : Option Float :=
  match v.untagged with
  | .integer n => some (Float.ofInt n)
  | .float x => some x
  | _ => none

end Value

end DataflowPlan.Yaml
