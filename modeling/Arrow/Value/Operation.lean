import Arrow.Error
import Arrow.Value.Comparison
import Arrow.Value.Text

/-!
# Binary operators on values

Arithmetic on integers is exact where the result is an integer in range, and done in floating point
otherwise. Addition with a text joins texts. Both operands of a logical operator are values already,
so nothing is skipped.
-/

namespace Arrow

namespace Operator

/-- The exact result of an arithmetic operator on integers, where it is an integer. -/
def onInt? : Operator → Int → Int → Option Int
  | add, a, b => some (a + b)
  | sub, a, b => some (a - b)
  | mul, a, b => some (a * b)
  | div, a, b => if b ≠ 0 ∧ a % b = 0 then some (a / b) else none
  | _, _, _ => none

/-- The result of an arithmetic operator on floating-point numbers. -/
def onFloat? : Operator → Float → Float → Option Float
  | add, x, y => some (x + y)
  | sub, x, y => some (x - y)
  | mul, x, y => some (x * y)
  | div, x, y => some (x / y)
  | _, _, _ => none

end Operator

namespace Value

/-- The result of an arithmetic operator, where it is an integer computed from integers. -/
def exactInteger? (op : Operator) : Value → Value → Option Integer
  | integer a, integer b => (op.onInt? a.toInt b.toInt).bind Integer.ofInt?
  | _, _ => none

/-- Applies an arithmetic operator. -/
def arithmetic (op : Operator) (left right : Value) (p : Position) : Except RuntimeError Value :=
  if op = .add ∧ (left.kind = .str ∨ right.kind = .str) then
    .ok (text (left.render ++ right.render))
  else
    match left.number?, right.number? with
    | some x, some y =>
      match exactInteger? op left right, op.onFloat? x y with
      | some n, _ => .ok (integer n)
      | none, some z => .ok (float z)
      | none, none => .error (.unknownOperator op p)
    | _, _ => .error (.typeError (.operands op left.kind right.kind) p)

/-- Applies a comparison operator. Values that are not ordered fail every comparison of order. -/
def comparison (op : Operator) (left right : Value) (p : Position) : Except RuntimeError Value :=
  let order := looseCompare? left right
  match op with
  | .equal => .ok (bool (looseEq left right))
  | .notEqual => .ok (bool (!looseEq left right))
  | .greater => .ok (bool (order = some .gt))
  | .less => .ok (bool (order = some .lt))
  | .greaterEqual => .ok (bool (order = some .gt || order = some .eq))
  | .lessEqual => .ok (bool (order = some .lt || order = some .eq))
  | _ => .error (.unknownOperator op p)

/-- Applies a logical operator. -/
def logic (op : Operator) (left right : Value) (p : Position) : Except RuntimeError Value :=
  match op with
  | .and => .ok (bool (left.isTruthy && right.isTruthy))
  | .or => .ok (bool (left.isTruthy || right.isTruthy))
  | _ => .error (.unknownOperator op p)

/-- Applies the operator of a binary expression at `p`. -/
def binary (op : Operator) (left right : Value) (p : Position) : Except RuntimeError Value :=
  match op with
  | .add | .sub | .mul | .div => arithmetic op left right p
  | .equal | .notEqual | .greater | .less | .greaterEqual | .lessEqual =>
    comparison op left right p
  | .and | .or => logic op left right p
  | .assign | .typeOpen | .typeClose | .not => .error (.unknownOperator op p)

end Value

end Arrow
