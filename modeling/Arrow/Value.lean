import Arrow.Decimal.Reader
import Arrow.Expr
import Arrow.Integer
import Arrow.Kind

/-!
# Values

The values that programs compute with, their kinds and what they count as: a truth value, a number.
-/

namespace Arrow

/-- A value. The fields of an object keep their order. -/
inductive Value where
  | integer (n : Integer)
  | float (x : Float)
  | text (content : String)
  | bool (b : Bool)
  | null
  | array (elements : List Value)
  | object (fields : List (String × Value))
deriving Inhabited

namespace Value

/-- The value of a constant. -/
def ofLiteral : Literal → Value
  | .integer n => integer n
  | .float x => float x
  | .text content => text content
  | .bool b => bool b
  | .null => null

def kind : Value → Kind
  | integer _ => .int
  | float _ => .float
  | text _ => .str
  | bool _ => .bool
  | null => .null
  | array _ => .array
  | object _ => .obj

/-- Whether a condition holds that has this value. -/
def isTruthy : Value → Bool
  | integer n => n ≠ 0
  | float x => x != 0.0 && !x.isNaN
  | text content => content ≠ ""
  | bool b => b
  | null => false
  | array _ => true
  | object _ => true

/-- The value of a number as a floating-point number. -/
def number? : Value → Option Float
  | integer n => some (Integer.toNearest n)
  | float x => some x
  | _ => none

/-- What a value counts as when it is compared with a number. -/
def coerced? : Value → Option Float
  | bool b => some (if b then 1.0 else 0.0)
  | text content => Text.number? content
  | value => value.number?

/-- The negation of a value, which is always a truth value. -/
def negated (value : Value) : Value :=
  bool (!value.isTruthy)

end Value

end Arrow
