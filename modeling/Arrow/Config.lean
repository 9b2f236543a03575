/-!
# Configurations

What a run demands of a program.
-/

namespace Arrow

/-- When a program has to declare an entry point. -/
inductive EntryPoint where
  | always
  | whenFunctionsDeclared
deriving DecidableEq

/-- What an assignment to a name without a binding does. -/
inductive AssignmentMode where
  | declare
  | reject
deriving DecidableEq

structure Config where
  entryPoint : EntryPoint
  assignment : AssignmentMode
  /-- How many calls of declared functions may be active at a time. -/
  maxCallDepth : Nat
deriving DecidableEq

namespace Config

/-- The configuration of a run that asks for no other. -/
def standard : Config := ⟨.whenFunctionsDeclared, .declare, 128⟩

/-- Demands an entry point, and a declaration before every assignment. -/
def strict : Config := ⟨.always, .reject, 128⟩

end Config

end Arrow
