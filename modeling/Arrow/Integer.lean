/-!
# Integers

The integers of the language are signed and have 64 bits. This module converts between them and
lengths, indices, floating-point numbers and the integers without bounds.
-/

namespace Arrow

/-- An integer of the language. -/
abbrev Integer := Int64

namespace Integer

/-- The integer in range that equals `n`. -/
def ofInt? (n : Int) : Option Integer :=
  if Int64.minValue.toInt ≤ n ∧ n ≤ Int64.maxValue.toInt then some (Int64.ofInt n) else none

/-- The integer that counts `n` things; counts beyond the range become the largest integer. -/
def ofLength (n : Nat) : Integer :=
  (ofInt? n).getD Int64.maxValue

/-- The place that an index denotes among `length` things. -/
def toIndex? (index : Integer) (length : Nat) : Option Nat :=
  if 0 ≤ index.toInt ∧ index.toInt < length then some index.toInt.toNat else none

/-- The floating-point number nearest to an integer, with ties to even. -/
def toNearest (n : Integer) : Float :=
  Float.ofInt n.toInt

end Integer

end Arrow
