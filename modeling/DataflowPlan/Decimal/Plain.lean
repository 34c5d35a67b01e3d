import DataflowPlan.Decimal.Shortest

/-!
Plain decimal text: the shortest digits with a point where it belongs and never an exponent; a
whole number has no point.
-/

namespace DataflowPlan.Decimal

/-- A natural number's decimal digits. -/
def digitText (n : Nat) : List Char :=
  Nat.toDigits 10 n

/-- The digits with the point in its place; a whole number has none. -/
def Scaled.plain (d : Scaled) : List Char :=
  let ds := digitText d.digits
  if 0 ≤ d.exponent then ds ++ List.replicate d.exponent.toNat '0'
  else
    let places := (-d.exponent).toNat
    if ds.length ≤ places then
      ['0', '.'] ++ List.replicate (places - ds.length) '0' ++ ds
    else
      ds.take (ds.length - places) ++ ['.'] ++ ds.drop (ds.length - places)

/-- A minus sign before a negative number. -/
def signed (negative : Bool) (text : List Char) : List Char :=
  if negative then '-' :: text else text

/-- The plain text of a floating-point number. -/
def plainText (x : Float) : String :=
  match Meaning.ofFloat x with
  | .undefined => "NaN"
  | .infinite negative => String.ofList (signed negative ['i', 'n', 'f'])
  | .zero negative => String.ofList (signed negative ['0'])
  | .finite negative size => String.ofList (signed negative (size.shortest .up).plain)

end DataflowPlan.Decimal
