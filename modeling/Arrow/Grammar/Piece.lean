import Arrow.Grammar.Reply
import Arrow.Program

/-!
# Pieces of the grammar

The routines that read single tokens, names and type annotations.
-/

namespace Arrow.Grammar

/-- Reads the mark `c` and replies with its position. -/
def mark (c : Char) (tokens : List Token) : Reply Position tokens.length :=
  match tokens with
  | [] => .behind (.punctuation c) []
  | token :: rest =>
    if token.kind = .punctuation c then .ok token.position rest (Reply.length_lt _)
    else .behind (.punctuation c) (token :: rest)

/-- Reads the operator `op` and replies with its position. -/
def operator (op : Operator) (tokens : List Token) : Reply Position tokens.length :=
  match tokens with
  | [] => .behind (.operator op) []
  | token :: rest =>
    if token.kind = .operator op then .ok token.position rest (Reply.length_lt _)
    else .behind (.operator op) (token :: rest)

/-- Reads a name and replies with its position, too. -/
def identifier (tokens : List Token) : Reply (String × Position) tokens.length :=
  match tokens with
  | ⟨.identifier name, _, p⟩ :: rest => .ok (name, p) rest (Reply.length_lt _)
  | tokens => .behind .identifier tokens

/-- The names that stand for constants. -/
def literalWord? (name : String) : Option Literal :=
  if name = "true" then some (.bool true)
  else if name = "false" then some (.bool false)
  else if name = "null" then some .null
  else none

/-- Reads a name that can be bound: any but those that stand for constants. -/
def bindingName (tokens : List Token) : Reply (String × Position) tokens.length :=
  match tokens with
  | ⟨.identifier name, text, p⟩ :: rest =>
    match literalWord? name with
    | some _ => .before .variableName (⟨.identifier name, text, p⟩ :: rest)
    | none => .ok (name, p) rest (Reply.length_lt _)
  | tokens => .behind .identifier tokens

/-- Reads a type annotation such as `<: const int :>`; its position is that of the type name. -/
def declaredType (tokens : List Token) : Reply DeclaredType tokens.length :=
  (operator .typeOpen tokens).andThen fun _ rest h₁ =>
    (identifier rest).andThen fun (word, p) rest h₂ =>
      if word = "const" then
        (identifier rest).andThen fun (name, p) rest h₃ =>
          (operator .typeClose rest).andThen fun _ rest h₄ =>
            .ok ⟨name, true, p⟩ rest (by omega)
      else
        (operator .typeClose rest).andThen fun _ rest h₃ => .ok ⟨word, false, p⟩ rest (by omega)

/-- Whether the first token is of the given kind. -/
def startsWith (kind : TokenKind) (tokens : List Token) : Bool :=
  tokens.head?.any (·.kind = kind)

end Arrow.Grammar
