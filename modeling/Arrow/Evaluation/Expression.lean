import Arrow.Action
import Arrow.Value.Collection
import Arrow.Value.Operation

/-!
# Evaluating expressions

Expressions are evaluated by recursion on their structure, operands and arguments from left to
right, each exactly once. How functions are called is left to a parameter.
-/

namespace Arrow

/-- How the function with a given name is called with arguments at a position. -/
abbrev Calling := String → List Value → Position → Action Value

namespace Expr

mutual

/-- Evaluates an expression. -/
def eval (call : Calling) : Expr → Action Value
  | literal value _ => pure (.ofLiteral value)
  | var name p => do
    match (← Action.environment).get? name with
    | some binding => pure binding.value
    | none => Action.fail (.undefinedVariable name p)
  | not operand _ => do
    let value ← operand.eval call
    pure value.negated
  | binary left op right p => do
    let a ← left.eval call
    let b ← right.eval call
    Action.check (Value.binary op a b p)
  | .call callee arguments p => do
    let args ← evalAll call arguments
    call callee args p
  | array elements _ => do
    let values ← evalAll call elements
    pure (.array values)
  | object fields _ => do
    let values ← evalFields call fields
    pure (.ofFields values)
  | index target selector p => do
    let a ← target.eval call
    let i ← selector.eval call
    Action.check (Value.index a i p)
  | member target property p => do
    let a ← target.eval call
    Action.check (Value.member a property p)

/-- Evaluates expressions from left to right. -/
def evalAll (call : Calling) : List Expr → Action (List Value)
  | [] => pure []
  | expr :: exprs => do
    let value ← expr.eval call
    let values ← evalAll call exprs
    pure (value :: values)

/-- Evaluates the fields of an object from left to right. -/
def evalFields (call : Calling) : List (String × Expr) → Action (List (String × Value))
  | [] => pure []
  | (key, expr) :: fields => do
    let value ← expr.eval call
    let values ← evalFields call fields
    pure ((key, value) :: values)

end

end Expr

end Arrow
