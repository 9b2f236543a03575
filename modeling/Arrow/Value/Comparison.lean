import Arrow.Value

/-!
# Comparisons of values

Values of one kind are compared as such. Texts and truth values count as numbers next to a value of
another kind, and null equals only itself. Arrays and objects are compared part by part for
equality, and are never ordered.
-/

namespace Arrow

/-- The order of two floating-point numbers; NaN is not ordered. -/
def floatOrder? (x y : Float) : Option Ordering :=
  if x < y then some .lt else if y < x then some .gt else if x == y then some .eq else none

namespace Value

mutual

/-- Whether the language takes two values for equal. -/
def looseEq : Value → Value → Bool
  | integer a, integer b => a = b
  | text a, text b => a = b
  | bool a, bool b => a = b
  | null, null => true
  | array as, array bs => looseEqElements as bs
  | object as, object bs => looseEqFields as bs
  | a, b =>
    match a.coerced?, b.coerced? with
    | some x, some y => x == y
    | _, _ => false

/-- Whether two arrays have equal elements. -/
def looseEqElements : List Value → List Value → Bool
  | [], [] => true
  | a :: as, b :: bs => looseEq a b && looseEqElements as bs
  | _, _ => false

/-- Whether two objects have the same keys in the same order, with equal values. -/
def looseEqFields : List (String × Value) → List (String × Value) → Bool
  | [], [] => true
  | (k, a) :: as, (l, b) :: bs => k = l && looseEq a b && looseEqFields as bs
  | _, _ => false

end

/-- The order in which the language takes two values to stand. -/
def looseCompare? : Value → Value → Option Ordering
  | integer a, integer b => some (compare a.toInt b.toInt)
  | text a, text b => some (compare a b)
  | a, b =>
    match a.coerced?, b.coerced? with
    | some x, some y => floatOrder? x y
    | _, _ => none

mutual

/-- Whether two values are of the same kind and equal throughout. -/
def strictEq : Value → Value → Bool
  | integer a, integer b => a = b
  | float x, float y => x == y
  | text a, text b => a = b
  | bool a, bool b => a = b
  | null, null => true
  | array as, array bs => strictEqElements as bs
  | object as, object bs => strictEqFields as bs
  | _, _ => false

/-- Whether two arrays are equal throughout. -/
def strictEqElements : List Value → List Value → Bool
  | [], [] => true
  | a :: as, b :: bs => strictEq a b && strictEqElements as bs
  | _, _ => false

/-- Whether two objects are equal throughout. -/
def strictEqFields : List (String × Value) → List (String × Value) → Bool
  | [], [] => true
  | (k, a) :: as, (l, b) :: bs => k = l && strictEq a b && strictEqFields as bs
  | _, _ => false

end

end Value

end Arrow
