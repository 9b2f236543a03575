/-!
# Argument counts

How many arguments a function takes.
-/

namespace Arrow

/-- The argument counts that a function accepts. -/
inductive Arity where
  | exactly (count : Nat)
  | oneOf (counts : List Nat)
  | any
deriving DecidableEq

namespace Arity

/-- Whether a number of arguments is accepted. -/
def accepts : Arity → Nat → Bool
  | exactly count, n => n = count
  | oneOf counts, n => counts.contains n
  | any, _ => true

/-- The wording of the accepted counts in messages. -/
def render : Arity → String
  | exactly count => toString count
  | oneOf counts => " or ".intercalate (counts.map toString)
  | any => "any number of"

end Arity

end Arrow
