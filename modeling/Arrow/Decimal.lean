/-!
# Decimals

A decimal is a number of digits times a power of ten. This module compares decimals with binary
fractions exactly, and rounds a decimal to the nearest floating-point number.
-/

namespace Arrow

/-- The power `2 ^ n`. -/
def twoPow (n : Nat) : Nat :=
  Nat.pow 2 n

/-- The power `10 ^ n`. -/
def tenPow (n : Nat) : Nat :=
  Nat.pow 10 n

/-- The number `digits * 10 ^ exponent`. -/
structure Decimal where
  digits : Nat
  exponent : Int
deriving DecidableEq

namespace Decimal

/-- The number of decimal digits of `n`; zero has one. -/
def width (n : Nat) : Nat :=
  (Nat.toDigits 10 n).length

/-- The same number without trailing zeros among its digits. -/
def strip (d : Decimal) : Decimal :=
  if d.digits ≠ 0 ∧ d.digits % 10 = 0 then strip ⟨d.digits / 10, d.exponent + 1⟩ else d
termination_by d.digits
decreasing_by omega

/-- Compares `d` with `m * 2 ^ q`, exactly. -/
def compareScaled (d : Decimal) (m : Nat) (q : Int) : Ordering :=
  compare (d.digits * tenPow d.exponent.toNat * twoPow (-q).toNat)
    (m * twoPow q.toNat * tenPow (-d.exponent).toNat)

/--
The floating-point number nearest to `d`, with ties to even. Magnitudes that are certain to
overflow or to vanish are settled before the power of ten is formed.
-/
def toFloat (d : Decimal) : Float :=
  let top := width d.digits + d.exponent
  if d.digits = 0 ∨ top < -330 then 0.0
  else if 310 < top then 1.0 / 0.0
  else Float.ofScientific d.digits (d.exponent < 0) d.exponent.natAbs

end Decimal

end Arrow
