/-!
Reading numbers: unsigned integers in a radix, and decimals, which are rounded to the nearest
floating-point number.
-/

namespace DataflowPlan.Decimal

/-- The value of a digit in radix 16 or less, letters of either case. -/
def digitValue? (radix : Nat) (c : Char) : Option Nat :=
  let value? :=
    if c.isDigit then some (c.toNat - '0'.toNat)
    else if 'a' ≤ c && c ≤ 'f' then some (c.toNat - 'a'.toNat + 10)
    else if 'A' ≤ c && c ≤ 'F' then some (c.toNat - 'A'.toNat + 10)
    else none
  value?.filter (· < radix)

/-- The number that a text of digits writes in a radix; nothing for no digits at all. -/
def natOfDigits? (radix : Nat) (text : List Char) : Option Nat :=
  if text.isEmpty then none
  else text.foldlM (fun n c => (digitValue? radix c).map (n * radix + ·)) 0

/-- The largest integer of 64 bits without a sign. -/
def maxWord : Nat := 18446744073709551615

/-- An integer of at most 64 bits without a sign. -/
def word? (radix : Nat) (text : List Char) : Option Nat :=
  (natOfDigits? radix text).filter (· ≤ maxWord)

/-- An integer of at most 64 bits, after an optional plus sign. -/
def plusWord? (text : List Char) : Option Nat :=
  match text with
  | '+' :: rest => word? 10 rest
  | _ => word? 10 text

/-- The floating-point number nearest to digits · 10^exponent. Beyond the range of exponents the
answer is zero or infinity.
-/
def nearest (digits : Nat) (exponent : Int) : Float :=
  let scale := (Nat.toDigits 10 digits).length + exponent
  if digits = 0 || scale < -400 then 0.0
  else if 400 < scale then 1.0 / 0.0
  else if 0 ≤ exponent then Float.ofScientific digits false exponent.toNat
  else Float.ofScientific digits true (-exponent).toNat

/-- The value of an exponent mark `e` or `E`, an optional sign and digits; nothing at all is 0. -/
def exponent? (text : List Char) : Option Int :=
  match text with
  | [] => some 0
  | mark :: rest =>
    if mark = 'e' || mark = 'E' then
      match rest with
      | '-' :: ds => (natOfDigits? 10 ds).map (fun n => -(n : Int))
      | '+' :: ds => (natOfDigits? 10 ds).map Int.ofNat
      | ds => (natOfDigits? 10 ds).map Int.ofNat
    else none

/-- An unsigned decimal: digits, a point that stands next to a digit, and an exponent. -/
def unsignedDecimal? (text : List Char) : Option Float :=
  let whole := text.takeWhile Char.isDigit
  let rest := text.dropWhile Char.isDigit
  let (fraction, rest) :=
    match rest with
    | '.' :: rest => (rest.takeWhile Char.isDigit, rest.dropWhile Char.isDigit)
    | _ => ([], rest)
  match natOfDigits? 10 (whole ++ fraction), exponent? rest with
  | some value, some exponent => some (nearest value (exponent - fraction.length))
  | _, _ => none

/-- An unsigned decimal, or a word for infinity or for an undefined number in any case. -/
def unsigned? (text : List Char) : Option Float :=
  let word := String.ofList (text.map Char.toLower)
  if word == "inf" || word == "infinity" then some (1.0 / 0.0)
  else if word == "nan" then some (0.0 / 0.0)
  else unsignedDecimal? text

/-- A floating-point number after an optional sign. -/
def float? (text : List Char) : Option Float :=
  match text with
  | '-' :: rest => (unsigned? rest).map Float.neg
  | '+' :: rest => unsigned? rest
  | _ => unsigned? text

end DataflowPlan.Decimal
