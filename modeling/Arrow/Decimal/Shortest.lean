import Arrow.Decimal.Binary

/-!
# The shortest decimal that reads back

Of all decimals that round to a floating-point number, `Binary.shortest` is one with the fewest
digits, and of those the nearest; an exact tie goes to the larger.
-/

namespace Arrow

namespace Binary

/-- The least `k` with `x < 10 ^ k`, for a number other than zero. -/
def magnitude (x : Binary) : Int :=
  if x.denominator ≤ x.numerator then Decimal.width (x.numerator / x.denominator)
  else 1 - Decimal.width ((x.denominator - 1) / x.numerator)

/-- The greatest multiple of `10 ^ e` that does not exceed `x`. -/
def roundDown (x : Binary) (e : Int) : Decimal :=
  ⟨x.numerator * tenPow (-e).toNat / (x.denominator * tenPow e.toNat), e⟩

/-- The multiple of `10 ^ e` nearest to `x` among the two around it that round to `x`. -/
def nearest? (x : Binary) (e : Int) : Option Decimal :=
  let below := x.roundDown e
  let above : Decimal := ⟨below.digits + 1, e⟩
  let middle : Decimal := ⟨2 * below.digits + 1, e⟩
  match x.contains below, x.contains above with
  | false, false => none
  | true, false => some below
  | false, true => some above
  | true, true =>
    if middle.compareScaled x.mantissa (x.exponent + 1) = .gt then some below else some above

/-- All the digits of `x`. -/
def exact (x : Binary) : Decimal :=
  if 0 ≤ x.exponent then ⟨x.mantissa * twoPow x.exponent.toNat, 0⟩
  else ⟨x.mantissa * Nat.pow 5 (-x.exponent).toNat, x.exponent⟩

/-- The shortest decimal that rounds to `x`; seventeen digits are always enough. -/
def shortest (x : Binary) : Decimal :=
  if x.mantissa = 0 then ⟨0, 0⟩
  else
    let found := (List.range 17).findSome? fun (n : Nat) => x.nearest? (x.magnitude - (n + 1))
    (found.getD x.exact).strip

end Binary

end Arrow
