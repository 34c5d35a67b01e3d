import DataflowPlan.Decimal.Reader
import DataflowPlan.Decimal.Plain

/-!
Numbers of JSON text: plain natural numbers apart from all others, how each is taken as a word or
as a floating-point number, and how a floating-point number is written.
-/

namespace DataflowPlan.Json

/-- A number as it is written. -/
inductive Number
  /-- Digits alone. -/
  | natural (n : Nat)
  /-- Digits with a sign, a fraction or an exponent. -/
  | decimal (negative : Bool) (whole fraction : List Char) (exponent : Int)
deriving DecidableEq

namespace Number

/-- The number as an integer of 64 bits without a sign. -/
def word? : Number → Option Nat
  | .natural n => if n ≤ Decimal.maxWord then some n else none
  | .decimal .. => none

-----------------------------------------------------------------------------------------------
-- Taking a number as floating-point

/-- Leading digits that fit a word, and how many digits are left over. -/
def leadingDigits : Nat → List Char → Nat × Nat
  | value, [] => (value, 0)
  | value, c :: rest =>
    let next := value * 10 + (c.toNat - '0'.toNat)
    if next ≤ Decimal.maxWord then leadingDigits next rest else (value, rest.length + 1)

/-- A word times a power of ten, with one rounding of the word and one per power. A result beyond
the largest floating-point number is none.
-/
def scaled? (value : Float) (exponent : Int) : Nat → Option Float
  | 0 => some 0.0
  | fuel + 1 =>
    if exponent.natAbs ≤ 308 then
      let power := Float.ofScientific 1 false exponent.natAbs
      if 0 ≤ exponent then
        let product := value * power
        if product.isInf then none else some product
      else some (value / power)
    else if value == 0.0 then some value
    else if 0 ≤ exponent then none
    else scaled? (value / Float.ofScientific 1 false 308) (exponent + 308) fuel

/-- The floating-point number of whole digits, fraction digits and an exponent. Digits beyond a
word are dropped, those of the whole part keeping their place.
-/
def unsignedFloat? (whole fraction : List Char) (exponent : Int) : Option Float :=
  let (value, dropped) := leadingDigits 0 whole
  let (value, unused) := leadingDigits value fraction
  scaled? (Float.ofNat value) (exponent + dropped - (fraction.length - unused)) 4

/-- The number as floating-point, if it is in range. -/
def float? : Number → Option Float
  | .natural n => unsignedFloat? (Nat.toDigits 10 n) [] 0
  | .decimal negative whole fraction exponent =>
    (unsignedFloat? whole fraction exponent).map fun x => if negative then x.neg else x

/-- The number is in range, as a word or as floating-point. -/
def isReadable (n : Number) : Bool :=
  n.word?.isSome || n.float?.isSome

-----------------------------------------------------------------------------------------------
-- Writing

/-- The exponents of the first digit that are written without an exponent mark. -/
def positional (lead : Int) : Bool :=
  -5 ≤ lead && lead ≤ 15

/-- A finite floating-point number: positional with at least one fraction digit, or one digit
before the point and an exponent.
-/
def ofScaled (negative : Bool) (d : Decimal.Scaled) : Number :=
  let ds := Nat.toDigits 10 d.digits
  let lead := d.exponent + ds.length - 1
  if positional lead then
    let text := d.plain
    let fraction := (text.dropWhile (· ≠ '.')).drop 1
    .decimal negative (text.takeWhile (· ≠ '.')) (if fraction.isEmpty then ['0'] else fraction) 0
  else
    .decimal negative (ds.take 1) (ds.drop 1) lead

/-- A floating-point number; one that is undefined or infinite has no number. -/
def ofFloat? (x : Float) : Option Number :=
  match Decimal.Meaning.ofFloat x with
  | .undefined | .infinite _ => none
  | .zero negative => some (.decimal negative ['0'] ['0'] 0)
  | .finite negative size => some (ofScaled negative (size.shortest .even))

/-- An exponent mark, a sign and digits; nothing for exponent 0. -/
def exponentText (exponent : Int) : List Char :=
  if exponent = 0 then []
  else 'e' :: (if exponent < 0 then '-' else '+') :: Nat.toDigits 10 exponent.natAbs

/-- The number's text. -/
def render : Number → List Char
  | .natural n => Nat.toDigits 10 n
  | .decimal negative whole fraction exponent =>
    Decimal.signed negative
      (whole ++ (if fraction.isEmpty then [] else '.' :: fraction) ++ exponentText exponent)

end Number

end DataflowPlan.Json
