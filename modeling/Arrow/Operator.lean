/-!
# Operators

The operators of the language and their bracketed spelling. Four of them are not for joining two
operands: three belong to declarations and one is a negation.
-/

namespace Arrow

/-- An operator. A bracketed and a plain spelling such as `<+>` and `+` are the same operator. -/
inductive Operator where
  | assign
  | typeOpen
  | typeClose
  | add
  | sub
  | mul
  | div
  | and
  | or
  | not
  | equal
  | notEqual
  | greater
  | less
  | greaterEqual
  | lessEqual
deriving DecidableEq

namespace Operator

/-- The bracketed spelling, which is also the spelling in messages. -/
def lexeme : Operator → String
  | assign => "<=="
  | typeOpen => "<:"
  | typeClose => ":>"
  | add => "<+>"
  | sub => "<->"
  | mul => "<*>"
  | div => "</>"
  | and => "<&&>"
  | or => "<||>"
  | not => "<!!>"
  | equal => "<=>"
  | notEqual => "<!=>"
  | greater => "<>>"
  | less => "<<>"
  | greaterEqual => "<>=>"
  | lessEqual => "<<=>"

/-- The operators that join two operands. -/
def isBinary : Operator → Bool
  | assign | typeOpen | typeClose | not => false
  | _ => true

end Operator

end Arrow
