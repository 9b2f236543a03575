import Arrow.Decimal.Shortest

/-!
# Writing floating-point numbers

The digits of a floating-point number are those of the shortest decimal that reads back. A `Layout`
says how they are set: which sizes are written positionally, and what ends a whole number.
-/

namespace Arrow

namespace Decimal

/-- The number of digits in front of the point, at or below zero for a number below one tenth. -/
def pointAt (d : Decimal) : Int :=
  width d.digits + d.exponent

/-- The number with all its places written out, a whole number being ended by `whole`. -/
def positional (d : Decimal) (whole : String) : String :=
  let digits := Nat.toDigits 10 d.digits
  if 0 ≤ d.exponent then
    String.ofList (digits ++ List.replicate d.exponent.toNat '0') ++ whole
  else if d.pointAt ≤ 0 then
    "0." ++ String.ofList (List.replicate (-d.pointAt).toNat '0' ++ digits)
  else
    let front := d.pointAt.toNat
    String.ofList (digits.take front ++ '.' :: digits.drop front)

/-- The number with one digit in front of the point and a power of ten. -/
def scientific (d : Decimal) : String :=
  let mantissa := match Nat.toDigits 10 d.digits with
    | first :: second :: rest => String.ofList (first :: '.' :: second :: rest)
    | digits => String.ofList digits
  s!"{mantissa}e{d.pointAt - 1}"

end Decimal

/-- How floating-point numbers are set. -/
structure Layout where
  infinity : String
  /-- What follows the digits of a number without a fraction. -/
  whole : String
  /-- Whether a number is written positionally, by its number of digits in front of the point. -/
  isPositional : Int → Bool

namespace Layout

/-- The text of a magnitude. -/
def magnitude (layout : Layout) (x : Binary) : String :=
  let d := x.shortest
  if layout.isPositional d.pointAt then d.positional layout.whole else d.scientific

/-- The text of a floating-point number. A zero keeps its sign, and NaN has none. -/
def render (layout : Layout) (x : Float) : String :=
  if x.isNaN then "NaN"
  else
    let sign := if twoPow 63 ≤ x.toBits.toNat then "-" else ""
    sign ++ if x.isInf then layout.infinity else layout.magnitude (Binary.ofFloat x)

end Layout

end Arrow
