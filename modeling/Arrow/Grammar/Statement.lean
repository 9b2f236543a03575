import Arrow.Grammar.Declaration

/-!
# The grammar of statements

Statements follow one another without separators, and the bodies of conditionals, loops and
functions are blocks in braces.
-/

namespace Arrow.Grammar

/-- Drops the arrow that may stand in front of a condition. -/
def skipArrow (tokens : List Token) : List Token :=
  if startsWith (.keyword .arrow) tokens then tokens.tail else tokens

theorem length_skipArrow_le (tokens : List Token) :
    (skipArrow tokens).length ≤ tokens.length := by
  unfold skipArrow
  split <;> simp

/-- Reads the value behind an arrow at `p`; at the end of a block or of the input there is none. -/
def returned (p : Position) (tokens : List Token) : Reply Statement (tokens.length + 1) :=
  if tokens.isEmpty || startsWith (.punctuation '\x7d') tokens || startsWith .endOfInput tokens then
    .ok (.returnValue (absent p) p) tokens (Reply.length_lt _)
  else ((expression tokens).map (.returnValue · p)).upTo (Reply.length_le _)

/-- Reads a statement that begins with a name at `p`; the token behind the name tells its form. -/
def named (p : Position) (tokens : List Token) : Reply Statement tokens.length :=
  match tokens.tail with
  | ⟨.operator .typeOpen, _, _⟩ :: _ => declaration p .var none tokens
  | ⟨.operator .assign, _, _⟩ :: _ =>
    (bindingName tokens).andThen fun (name, p) rest h₁ =>
      (operator .assign rest).andThen fun _ rest h₂ =>
        ((expression rest).map (.assignment name · p)).upTo (by omega)
  | ⟨.punctuation '(', _, _⟩ :: _ => (expression tokens).map (.expression · p)
  | next => .error (Reply.unexpected .afterName next) tokens

mutual

/-- Reads a statement. -/
def statement (tokens : List Token) : Reply Statement tokens.length :=
  match tokens with
  | ⟨.keyword (.var type), _, p⟩ :: rest => (declaration p .var type rest).upTo (Reply.length_le _)
  | ⟨.keyword (.const type), _, p⟩ :: rest =>
    (declaration p .const type rest).upTo (Reply.length_le _)
  | ⟨.keyword (.fn type), _, p⟩ :: rest =>
    (header p type rest).andThen fun head rest h =>
      ((block rest).map fun body =>
        .function ⟨head.name, head.params, head.returnType, body, p⟩).upTo
        (by simp only [List.length_cons]; omega)
  | ⟨.keyword .arrow, _, p⟩ :: rest => returned p rest
  | ⟨.keyword .ifWord, text, p⟩ :: rest => conditional (⟨.keyword .ifWord, text, p⟩ :: rest)
  | ⟨.keyword .whileWord, text, p⟩ :: rest => whileLoop (⟨.keyword .whileWord, text, p⟩ :: rest)
  | ⟨.keyword .forWord, text, p⟩ :: rest => forLoop (⟨.keyword .forWord, text, p⟩ :: rest)
  | ⟨.identifier name, text, p⟩ :: rest => named p (⟨.identifier name, text, p⟩ :: rest)
  | tokens => .before .statement tokens
termination_by 4 * tokens.length + 2

/-- Reads statements in braces. -/
def block (tokens : List Token) : Reply (List Statement) tokens.length :=
  (mark '\x7b' tokens).andThen fun _ rest h => (statements rest).upTo (by omega)
termination_by 4 * tokens.length

/-- Reads statements up to the closing brace, and the brace. -/
def statements (tokens : List Token) : Reply (List Statement) tokens.length :=
  match tokens with
  | ⟨.punctuation '\x7d', _, _⟩ :: rest => .ok [] rest (Reply.length_lt _)
  | [] => .before (.punctuation '\x7d') []
  | ⟨.endOfInput, text, p⟩ :: rest =>
    .before (.punctuation '\x7d') (⟨.endOfInput, text, p⟩ :: rest)
  | tokens =>
    (statement tokens).andThen fun first rest h =>
      ((statements rest).map (first :: ·)).upTo (by omega)
termination_by 4 * tokens.length + 3

/-- Reads a condition, with or without an arrow in front, and the block that it guards. -/
def branch (tokens : List Token) : Reply Branch tokens.length :=
  have := length_skipArrow_le tokens
  (expression (skipArrow tokens)).andThen fun condition rest h =>
    ((block rest).map (⟨condition, ·⟩)).upTo (by omega)
termination_by 4 * tokens.length + 1

/-- Reads the branches that follow the first one, and the block for when none applies. -/
def otherBranches (tokens : List Token) :
    Reply (List Branch × Option (List Statement)) (tokens.length + 1) :=
  match tokens with
  | ⟨.keyword .elifWord, _, _⟩ :: rest =>
    (branch rest).andThen fun first rest h =>
      ((otherBranches rest).map fun (others, last) => (first :: others, last)).upTo
        (by simp only [List.length_cons]; omega)
  | ⟨.keyword .elseWord, _, _⟩ :: rest =>
    ((block rest).map fun body => ([], some body)).upTo (by simp only [List.length_cons]; omega)
  | tokens => .ok ([], none) tokens (Reply.length_lt _)
termination_by 4 * tokens.length + 2

/-- Reads a conditional; its first token is the word that introduces it. -/
def conditional (tokens : List Token) : Reply Statement tokens.length :=
  match tokens with
  | [] => .before (.word "if") []
  | word :: rest =>
    (branch rest).andThen fun first rest h =>
      ((otherBranches rest).map fun (others, last) =>
        .conditional (first :: others) last word.position).upTo (Reply.succ_length_le h)
termination_by 4 * tokens.length

/-- Reads a loop with a condition; its first token is the word that introduces it. -/
def whileLoop (tokens : List Token) : Reply Statement tokens.length :=
  match tokens with
  | [] => .before (.word "while") []
  | word :: rest =>
    ((branch rest).map fun ⟨condition, body⟩ => .whileLoop condition body word.position).upTo
      (Reply.length_le _)
termination_by 4 * tokens.length

/-- Reads a loop with three parts; its first token is the word that introduces it. -/
def forLoop (tokens : List Token) : Reply Statement tokens.length :=
  match tokens with
  | [] => .before (.word "for") []
  | word :: rest =>
    have := length_skipArrow_le rest
    (statement (skipArrow rest)).andThen fun init rest h₁ =>
      (mark ';' rest).andThen fun _ rest h₂ =>
        (expression rest).andThen fun condition rest h₃ =>
          (mark ';' rest).andThen fun _ rest h₄ =>
            (statement rest).andThen fun update rest h₅ =>
              ((block rest).map (.forLoop init condition update · word.position)).upTo
                (by simp only [List.length_cons]; omega)
termination_by 4 * tokens.length

end

end Arrow.Grammar
