import Arrow.Decimal

/-!
# Floating-point numbers as binary fractions

A finite floating-point number is a natural mantissa times a power of two. The reals that round to
it form an interval, whose ends `Binary.contains` compares with a decimal exactly.
-/

namespace Arrow

/-- The number `mantissa * 2 ^ exponent`, together with the shape of its neighbourhood. -/
structure Binary where
  mantissa : Nat
  exponent : Int
  /-- The neighbour below is half as far away as the neighbour above. -/
  narrowBelow : Bool
deriving DecidableEq

namespace Binary

/-- The magnitude of a finite floating-point number. -/
def ofFloat (x : Float) : Binary :=
  let bits := x.toBits.toNat % twoPow 63
  let field := bits / twoPow 52
  let fraction := bits % twoPow 52
  if field = 0 then ⟨fraction, -1074, false⟩
  else ⟨twoPow 52 + fraction, (field : Int) - 1075, fraction = 0 ∧ 1 < field⟩

/-- Numerator of the number as a fraction. -/
def numerator (x : Binary) : Nat :=
  x.mantissa * twoPow x.exponent.toNat

/-- Denominator of the number as a fraction. -/
def denominator (x : Binary) : Nat :=
  twoPow (-x.exponent).toNat

/--
Whether `d` rounds to `x`. In units of `2 ^ (exponent - 2)` the interval reaches two above `x` and
two below, or one below where the gap is narrow; its ends belong to it when the mantissa is even.
-/
def contains (x : Binary) (d : Decimal) : Bool :=
  let low := d.compareScaled (4 * x.mantissa - if x.narrowBelow then 1 else 2) (x.exponent - 2)
  let high := d.compareScaled (4 * x.mantissa + 2) (x.exponent - 2)
  let ends := x.mantissa % 2 = 0
  (low = .gt ∨ ends ∧ low = .eq) ∧ (high = .lt ∨ ends ∧ high = .eq)

end Binary

end Arrow
