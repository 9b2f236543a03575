import Arrow.Grammar.Piece

/-!
# The grammar of expressions

An expression is a chain of operands joined by operators. All operators bind alike and the chain
is read from left to right.
-/

namespace Arrow.Grammar

mutual

/-- Reads an expression. -/
def expression (tokens : List Token) : Reply Expr tokens.length :=
  (unary tokens).andThen fun left rest h => (chain left rest).upTo h
termination_by 4 * tokens.length + 3

/-- Reads the operators and operands that follow the operand `left`. -/
def chain (left : Expr) (tokens : List Token) : Reply Expr (tokens.length + 1) :=
  match tokens with
  | ⟨.operator op, text, p⟩ :: rest =>
    if op.isBinary then
      (unary rest).andThen fun right rest h =>
        (chain (.binary left op right p) rest).upTo (by simp only [List.length_cons]; omega)
    else .ok left (⟨.operator op, text, p⟩ :: rest) (Reply.length_lt _)
  | tokens => .ok left tokens (Reply.length_lt _)
termination_by 4 * tokens.length + 3

/-- Reads any number of negations and what they apply to. -/
def unary (tokens : List Token) : Reply Expr tokens.length :=
  match tokens with
  | ⟨.operator .not, _, p⟩ :: rest =>
    ((unary rest).map (.not · p)).upTo (Reply.length_le _)
  | tokens => (primary tokens).andThen fun target rest h => (selections target rest).upTo h
termination_by 4 * tokens.length + 2

/-- Reads the indices and properties that are selected from `target`. -/
def selections (target : Expr) (tokens : List Token) : Reply Expr (tokens.length + 1) :=
  match tokens with
  | ⟨.punctuation '[', _, p⟩ :: rest =>
    (expression rest).andThen fun index rest h₁ =>
      (mark ']' rest).andThen fun _ rest h₂ =>
        (selections (.index target index p) rest).upTo (by simp only [List.length_cons]; omega)
  | ⟨.punctuation '.', _, _⟩ :: rest =>
    (identifier rest).andThen fun (property, p) rest h =>
      (selections (.member target property p) rest).upTo (by simp only [List.length_cons]; omega)
  | tokens => .ok target tokens (Reply.length_lt _)
termination_by 4 * tokens.length + 3

/-- Reads a constant, a variable, a call, or something in brackets. -/
def primary (tokens : List Token) : Reply Expr tokens.length :=
  match tokens with
  | ⟨.number (.integer n), _, p⟩ :: rest =>
    .ok (.literal (.integer n) p) rest (Reply.length_lt _)
  | ⟨.number (.float x), _, p⟩ :: rest => .ok (.literal (.float x) p) rest (Reply.length_lt _)
  | ⟨.text content, _, p⟩ :: rest => .ok (.literal (.text content) p) rest (Reply.length_lt _)
  | ⟨.identifier name, _, p⟩ :: rest =>
    match literalWord? name, rest with
    | some value, rest => .ok (.literal value p) rest (Reply.length_lt _)
    | none, ⟨.punctuation '(', _, _⟩ :: rest =>
      ((Reply.items ')' rest fun tokens _ => expression tokens).map (.call name · p)).upTo
        (by simp only [List.length_cons]; omega)
    | none, rest => .ok (.var name p) rest (Reply.length_lt _)
  | ⟨.punctuation '(', _, _⟩ :: rest =>
    (expression rest).andThen fun value rest h₁ =>
      (mark ')' rest).andThen fun _ rest h₂ =>
        .ok value rest (by simp only [List.length_cons]; omega)
  | ⟨.punctuation '[', _, p⟩ :: rest =>
    ((Reply.items ']' rest fun tokens _ => expression tokens).map (.array · p)).upTo
      (Reply.length_le _)
  | ⟨.punctuation '\x7b', _, p⟩ :: rest =>
    ((Reply.items '\x7d' rest fun tokens _ => field tokens).map (.object · p)).upTo (Reply.length_le _)
  | tokens => .behind .expression tokens
termination_by 4 * tokens.length

/-- Reads a key, a colon and the value of an object's field. -/
def field (tokens : List Token) : Reply (String × Expr) tokens.length :=
  match tokens with
  | ⟨.identifier key, _, _⟩ :: rest => fieldValue key rest
  | ⟨.text key, _, _⟩ :: rest => fieldValue key rest
  | tokens => .behind .propertyName tokens
termination_by 4 * tokens.length

/-- Reads the colon and the value that follow the key of an object's field. -/
def fieldValue (key : String) (tokens : List Token) :
    Reply (String × Expr) (tokens.length + 1) :=
  (mark ':' tokens).andThen fun _ rest h =>
    ((expression rest).map (key, ·)).upTo (by omega)
termination_by 4 * tokens.length

end

end Arrow.Grammar
