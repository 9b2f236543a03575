import Arrow.Error
import Arrow.Token

/-!
# Replies of the grammar

A routine of the grammar reads from the front of a list of tokens. It replies with what it has read
and the tokens that remain, fewer than a bound, or with an error and the tokens that remained when
the error was found. The bound is what makes routines that call each other end.
-/

namespace Arrow

/-- What a routine has read, leaving fewer than `bound` tokens, or why it has stopped. -/
inductive Reply (α : Type) (bound : Nat) where
  | ok (value : α) (rest : List Token) (length_lt : rest.length < bound)
  | error (cause : ParseError) (rest : List Token)

namespace Reply

/-- Behind a token there are fewer tokens than with it. -/
theorem length_lt (rest : List Token) : rest.length < rest.length + 1 :=
  Nat.lt_succ_self rest.length

theorem length_le (rest : List Token) : rest.length ≤ rest.length + 1 :=
  Nat.le_succ rest.length

theorem succ_length_le {rest later : List Token} (h : later.length < rest.length) :
    later.length + 1 ≤ rest.length + 1 :=
  Nat.le_succ_of_le h

variable {α β : Type} {a b : Nat}

/-- Reads on from where `r` has stopped, which is short of its bound. -/
@[inline]
def andThen (r : Reply α a) (f : α → (rest : List Token) → rest.length < a → Reply β b) :
    Reply β b :=
  match r with
  | ok value rest h => f value rest h
  | error cause rest => error cause rest

/-- The same reply under a larger bound. -/
@[inline]
def upTo (r : Reply α a) (h : a ≤ b) : Reply α b :=
  match r with
  | ok value rest h' => ok value rest (Nat.lt_of_lt_of_le h' h)
  | error cause rest => error cause rest

/-- The same reply with another value. -/
@[inline]
def map (f : α → β) (r : Reply α a) : Reply β a :=
  match r with
  | ok value rest h => ok (f value) rest h
  | error cause rest => error cause rest

/-- The reply without its bound: the value, or the error, and the tokens that remain. -/
def outcome (r : Reply α a) : Except ParseError α × List Token :=
  match r with
  | ok value rest _ => (.ok value, rest)
  | error cause rest => (.error cause, rest)

@[simp]
theorem outcome_upTo (r : Reply α a) (h : a ≤ b) : (r.upTo h).outcome = r.outcome := by
  cases r <;> rfl

@[simp]
theorem outcome_map (f : α → β) (r : Reply α a) :
    (r.map f).outcome = (r.outcome.1.map f, r.outcome.2) := by
  cases r <;> rfl

/-- The error that the first of `tokens` is not what was expected. -/
def unexpected (what : Expectation) (tokens : List Token) : ParseError :=
  match tokens with
  | [] => .expected what "end of input" .unknown
  | token :: _ => .expected what token.describe token.position

/-- Stops in front of a token that is not what was expected. -/
def before (what : Expectation) (tokens : List Token) : Reply α a :=
  error (unexpected what tokens) tokens

/-- Stops behind a token that is not what was expected. -/
def behind (what : Expectation) (tokens : List Token) : Reply α a :=
  error (unexpected what tokens) tokens.tail

/-- Reads items separated by commas and the mark `closing` behind the last one. -/
def itemsUntil (closing : Char) (bound : Nat)
    (item : (tokens : List Token) → tokens.length ≤ bound → Reply α tokens.length)
    (tokens : List Token) (h : tokens.length ≤ bound) : Reply (List α) tokens.length :=
  (item tokens h).andThen fun first rest hlt =>
    match rest with
    | [] => behind (.afterItem closing) []
    | token :: rest =>
      have : rest.length < tokens.length := by simp only [List.length_cons] at hlt; omega
      if token.kind = .punctuation ',' then
        ((itemsUntil closing bound item rest (by omega)).map (first :: ·)).upTo (by omega)
      else if token.kind = .punctuation closing then ok [first] rest this
      else behind (.afterItem closing) (token :: rest)
termination_by tokens.length

/-- Reads a list of items whose opening mark has been read, through the mark `closing`. -/
def items (closing : Char)
    (tokens : List Token)
    (item : (rest : List Token) → rest.length ≤ tokens.length → Reply α rest.length) :
    Reply (List α) tokens.length :=
  match tokens with
  | [] => itemsUntil closing 0 item [] (Nat.le_refl _)
  | token :: rest =>
    if token.kind = .punctuation closing then ok [] rest (length_lt rest)
    else itemsUntil closing _ item (token :: rest) (Nat.le_refl _)

end Reply

end Arrow
