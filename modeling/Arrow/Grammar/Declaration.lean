import Arrow.Grammar.Expression

/-!
# The grammar of declarations

A declaration may give its type in the marker in front of the name or in an annotation behind it,
but not in both.
-/

namespace Arrow.Grammar

/-- The constant that takes the place of a missing value. -/
def absent (p : Position) : Expr :=
  .literal .null p

/-- The type that a declaration word names. -/
def wordType (type : Option String) (kind : Mutability) (p : Position) : Option DeclaredType :=
  type.map fun name => ⟨name, kind = .const, p⟩

/--
Reads the type annotation behind a name, if there is one. There may be none when the type is known
from the word in front of the name; `what` is what is expected then.
-/
def optionalType (known : Option DeclaredType) (what : Expectation) (tokens : List Token) :
    Reply (Option DeclaredType) (tokens.length + 1) :=
  if startsWith (.operator .typeOpen) tokens then
    if known.isSome then .before what tokens
    else ((declaredType tokens).map some).upTo (Reply.length_le _)
  else .ok known tokens (Reply.length_lt _)

/-- A name whose type is marked constant is constant. -/
def settled (kind : Mutability) (type : Option DeclaredType) : Mutability :=
  if type.any (·.constant) then .const else kind

/-- Reads the name, the type and the value of a variable declared at `p`. -/
def declaration (p : Position) (kind : Mutability) (type : Option String) (tokens : List Token) :
    Reply Statement tokens.length :=
  (bindingName tokens).andThen fun (name, _) rest h₁ =>
    (optionalType (wordType type kind p) (.operator .assign) rest).andThen fun type rest h₂ =>
      match rest with
      | ⟨.operator .assign, _, _⟩ :: rest =>
        ((expression rest).map (.declaration (settled kind type) name type · p)).upTo
          (by simp only [List.length_cons] at h₂; omega)
      | rest => .ok (.declaration (settled kind type) name type (absent p) p) rest (by omega)

/-- Reads a parameter of a function. -/
def parameter (tokens : List Token) : Reply Parameter tokens.length :=
  match tokens with
  | ⟨.keyword (.const type), _, p⟩ :: rest =>
    (parameterName .const (wordType type .const p) rest).upTo (Reply.length_le _)
  | ⟨.keyword (.var type), _, p⟩ :: rest =>
    (parameterName .var (wordType type .var p) rest).upTo (Reply.length_le _)
  | tokens => parameterName .var none tokens
where
  /-- Reads the name of a parameter and the annotation behind it. -/
  parameterName (kind : Mutability) (known : Option DeclaredType) (tokens : List Token) :
      Reply Parameter tokens.length :=
    (bindingName tokens).andThen fun (name, p) rest h₁ =>
      (optionalType known (.afterItem ')') rest).andThen fun type rest h₂ =>
        .ok ⟨name, type, settled kind type, p⟩ rest (by omega)

/-- The first parameter with a name that an earlier one has. -/
def repeated? (seen : List String) : List Parameter → Option Parameter
  | [] => none
  | param :: params =>
    if seen.contains param.name then some param else repeated? (param.name :: seen) params

/-- What the marker, the name, the parameters and the type of a function declare. -/
structure Header where
  name : String
  params : List Parameter
  returnType : Option DeclaredType

/-- Reads what precedes the body of a function whose marker stands at `p`. -/
def header (p : Position) (type : Option String) (tokens : List Token) :
    Reply Header tokens.length :=
  (identifier tokens).andThen fun (name, _) rest h₁ =>
    (mark '(' rest).andThen fun _ rest h₂ =>
      (Reply.items ')' rest fun tokens _ => parameter tokens).andThen fun params rest h₃ =>
        match repeated? [] params with
        | some param => .error (.duplicateParameter param.name param.position) rest
        | none =>
          (optionalType (wordType type .var p) (.punctuation '\x7b') rest).andThen
            fun type rest h₄ => .ok ⟨name, params, type⟩ rest (by omega)

end Arrow.Grammar
