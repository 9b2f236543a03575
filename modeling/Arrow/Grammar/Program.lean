import Arrow.Grammar.Statement

/-!
# The grammar of programs

A program is a sequence of statements up to the end of the input. Comments are no part of it.
-/

namespace Arrow

/-- Reads statements up to the end of the input, or of the tokens. -/
def statementsToEnd (tokens : List Token) : Except ParseError (List Statement) :=
  match tokens with
  | [] => .ok []
  | ⟨.endOfInput, _, _⟩ :: _ => .ok []
  | tokens =>
    match Grammar.statement tokens with
    | .error cause _ => .error cause
    | .ok first rest _ =>
      match statementsToEnd rest with
      | .error cause => .error cause
      | .ok others => .ok (first :: others)
termination_by tokens.length

/-- The program that a sequence of tokens makes up; comments have no part in it. -/
def parse (tokens : List Token) : Except ParseError Program :=
  (statementsToEnd (tokens.filter (!·.isComment))).map (⟨·⟩)

end Arrow
