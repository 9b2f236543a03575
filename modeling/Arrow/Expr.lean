import Arrow.Integer
import Arrow.Operator
import Arrow.Position

/-!
# Expressions

The expressions of the language. Each node keeps the position that errors about it refer to.
-/

namespace Arrow

/-- A constant that a source text spells out. -/
inductive Literal where
  | integer (n : Integer)
  | float (x : Float)
  | text (content : String)
  | bool (b : Bool)
  | null
deriving DecidableEq

/-- An expression. -/
inductive Expr where
  | literal (value : Literal) (position : Position)
  | var (name : String) (position : Position)
  | not (operand : Expr) (position : Position)
  | binary (left : Expr) (op : Operator) (right : Expr) (position : Position)
  | call (callee : String) (arguments : List Expr) (position : Position)
  | array (elements : List Expr) (position : Position)
  | object (fields : List (String × Expr)) (position : Position)
  | index (target index : Expr) (position : Position)
  | member (target : Expr) (property : String) (position : Position)

/--
The position of an expression: that of its operator, of the bracket of an index, of the name of a
property, and otherwise that of its first token.
-/
def Expr.position : Expr → Position
  | literal _ p => p
  | var _ p => p
  | not _ p => p
  | binary _ _ _ p => p
  | call _ _ p => p
  | array _ p => p
  | object _ p => p
  | index _ _ p => p
  | member _ _ p => p

end Arrow
