/-!
The shortest decimal of a floating-point number: the fewest digits that are read back as the same
number. The candidates of each length are tried in exact arithmetic, shortest first.
-/

namespace DataflowPlan.Decimal

/-- A decimal number, digits · 10^exponent. -/
structure Scaled where
  digits : Nat
  exponent : Int
deriving DecidableEq

/-- A positive binary number, mantissa · 2^exponent. -/
structure Binary where
  mantissa : Nat
  exponent : Int
  /-- The number below is half as far away as the number above. -/
  closeBelow : Bool
deriving DecidableEq

/-- What a floating-point number stands for. -/
inductive Meaning
  | undefined
  | infinite (negative : Bool)
  | zero (negative : Bool)
  | finite (negative : Bool) (size : Binary)
deriving DecidableEq

/-- Takes the bits apart into sign, exponent and fraction. -/
def Meaning.ofFloat (x : Float) : Meaning :=
  let bits : Nat := x.toBits.toNat
  let negative := bits / Nat.pow 2 63 == 1
  let exponent : Nat := bits / Nat.pow 2 52 % Nat.pow 2 11
  let fraction : Nat := bits % Nat.pow 2 52
  if exponent == 2047 then
    if fraction == 0 then .infinite negative else .undefined
  else if exponent == 0 then
    if fraction == 0 then .zero negative else .finite negative ⟨fraction, -1074, false⟩
  else
    .finite negative
      ⟨Nat.pow 2 52 + fraction, (exponent : Int) - 1075, fraction == 0 && exponent > 1⟩

/-- Compares a decimal with `quarters` quarters of the binary number's last place. -/
def Binary.compareQuarters (x : Binary) (d : Scaled) (quarters : Nat) : Ordering :=
  let place := x.exponent - 2
  compare (d.digits * Nat.pow 10 d.exponent.toNat * Nat.pow 2 (-place).toNat)
    (quarters * Nat.pow 2 place.toNat * Nat.pow 10 (-d.exponent).toNat)

/-- The decimal lies among the reals that are rounded to the binary number: up to half a place
above and below, the ends included when the mantissa is even.
-/
def Binary.reads (x : Binary) (d : Scaled) : Bool :=
  let ends := x.mantissa % 2 == 0
  let low := x.compareQuarters d (if x.closeBelow then 4 * x.mantissa - 1 else 4 * x.mantissa - 2)
  let high := x.compareQuarters d (4 * x.mantissa + 2)
  (low == .gt || (ends && low == .eq)) && (high == .lt || (ends && high == .eq))

/-- The whole number of units 10^place below the binary number. -/
def Binary.unitsBelow (x : Binary) (place : Int) : Nat :=
  x.mantissa * Nat.pow 2 x.exponent.toNat * Nat.pow 10 (-place).toNat
    / (Nat.pow 10 place.toNat * Nat.pow 2 (-x.exponent).toNat)

/-- The exponent of the least power of ten above the binary number. -/
def Binary.scale (x : Binary) : Int :=
  ((Nat.toDigits 10 (x.unitsBelow (-400))).length : Int) - 400

/-- Which of two equally close decimals of one length is taken. -/
inductive Tie
  | up
  | even
deriving DecidableEq

/-- The decimal with units 10^place that is read as the binary number and closest to it, if any. -/
def Binary.onGrid (x : Binary) (tie : Tie) (place : Int) : Option Scaled :=
  let below : Scaled := ⟨x.unitsBelow place, place⟩
  let above : Scaled := ⟨x.unitsBelow place + 1, place⟩
  match x.reads below, x.reads above with
  | true, true =>
    match x.compareQuarters ⟨below.digits + above.digits, place⟩ (8 * x.mantissa) with
    | .lt => some above
    | .gt => some below
    | .eq => if tie == .even && below.digits % 2 == 0 then some below else some above
  | true, false => some below
  | false, true => some above
  | false, false => none

/-- Moves final zeros of the digits into the exponent. -/
def Scaled.trimZeros (d : Scaled) : Nat → Scaled
  | 0 => d
  | fuel + 1 =>
    if d.digits != 0 && d.digits % 10 == 0 then
      Scaled.trimZeros ⟨d.digits / 10, d.exponent + 1⟩ fuel
    else d

/-- The binary number itself as a decimal. -/
def Binary.exact (x : Binary) : Scaled :=
  ⟨x.mantissa * Nat.pow 2 x.exponent.toNat * Nat.pow 5 (-x.exponent).toNat, min x.exponent 0⟩

/-- The decimal of fewest digits that is read as the binary number, the closest of those. -/
def Binary.shortest (x : Binary) (tie : Tie) : Scaled :=
  let found := (List.range 17).findSome? fun n => x.onGrid tie (x.scale - (n + 1 : Nat))
  (found.getD x.exact).trimZeros 20

end DataflowPlan.Decimal
