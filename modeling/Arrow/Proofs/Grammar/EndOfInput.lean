import Arrow.Proofs.Grammar.Parametricity
import Mathlib

/-!
# The end of input

Tokens may end by themselves or with a token for the end of input, and more may stand behind that:
all this is read alike (`parse_of_atEnd`). Only an error that has found the end of input tells where
it is.
-/

namespace Arrow

/-- The end of input was found where something else was expected. -/
def ParseError.FindsEnd : ParseError → Prop
  | expected _ found _ => found = "end of input"
  | duplicateParameter _ _ => False

section

variable {E : Position → Position → Prop} {ts us vs : List Token} {p q : Position}

theorem Token.AtEnd.filter (h : Token.AtEnd ts p) : Token.AtEnd (ts.filter (!·.isComment)) p := by
  cases h with
  | nil => exact .nil
  | endOfInput => exact .endOfInput

/-- The tokens in front of the end of input may be related to themselves. -/
theorem Token.movedToEnd_append (hts : ∀ token ∈ ts, token.kind ≠ .endOfInput)
    (hus : Token.AtEnd us p) (hvs : Token.AtEnd vs q) (h : E p q) :
    Token.MovedToEnd Eq E (ts ++ us) (ts ++ vs) := by
  induction ts with
  | nil => exact .last hus hvs h
  | cons token ts ih =>
    obtain ⟨htoken, hrest⟩ := List.forall_mem_cons.1 hts
    exact .cons htoken rfl (ih hrest)

/-- However the input ends, the same is read, or the errors differ in where it ends. -/
theorem parse_of_atEnd (hts : ∀ token ∈ ts, token.kind ≠ .endOfInput) (hus : Token.AtEnd us p)
    (hvs : Token.AtEnd vs q) :
    Matched (ParseError.MovedToEnd Eq fun p' q' => p' = p ∧ q' = q) Eq (parse (ts ++ us))
      (parse (ts ++ vs)) := by
  have hcode : ∀ token ∈ ts.filter (!·.isComment), token.kind ≠ .endOfInput :=
    fun token htoken => hts token (List.mem_of_mem_filter htoken)
  have hmoved : Token.MovedToEnd Eq (fun p' q' => p' = p ∧ q' = q) _ _ :=
    Token.movedToEnd_append hcode hus.filter hvs.filter ⟨rfl, rfl⟩
  rw [← List.filter_append, ← List.filter_append] at hmoved
  have hparse := parse_movedToEnd hmoved
  generalize parse (ts ++ us) = x, parse (ts ++ vs) = y at hparse ⊢
  cases hparse with
  | ok h => exact .ok h.eq
  | error h => exact .error h

/-- Where the input ends at the same position there is no difference at all. -/
theorem parse_eq_of_atEnd (hts : ∀ token ∈ ts, token.kind ≠ .endOfInput) (hus : Token.AtEnd us p)
    (hvs : Token.AtEnd vs p) : parse (ts ++ us) = parse (ts ++ vs) := by
  refine (parse_of_atEnd hts hus hvs).eq fun hcause => ?_
  cases hcause with
  | found _ hp => rw [hp]
  | endOfInput hp => rw [hp.1, hp.2]
  | duplicateParameter hp => rw [hp]

theorem ParseError.MovedToEnd.eq_placed {cause other : ParseError}
    (h : cause.MovedToEnd Eq (fun p' q' => p' = p ∧ q' = q) other) (hend : cause.FindsEnd) :
    cause.position = p ∧ other = cause.placed q := by
  cases h with
  | found hfound _ => exact absurd hend hfound
  | endOfInput hp =>
    obtain ⟨rfl, rfl⟩ := hp
    exact ⟨rfl, rfl⟩
  | duplicateParameter _ => exact hend.elim

theorem ParseError.MovedToEnd.eq_of_not_findsEnd {cause other : ParseError}
    (h : cause.MovedToEnd Eq E other) (hend : ¬ cause.FindsEnd) : cause = other := by
  cases h with
  | found _ hp => rw [hp]
  | endOfInput _ => exact absurd rfl hend
  | duplicateParameter hp => rw [hp]

end

/--
What stands behind the token for the end of input is not looked at. Without the token the same is
read; and errors are the same, except that one which has found the end of input is at no known
position without the token, and at its position with it.
-/
theorem parse_endOfInput {ts : List Token} {last : Token}
    (hts : ∀ token ∈ ts, token.kind ≠ .endOfInput) (hlast : last.kind = .endOfInput)
    (later : List Token) :
    parse (ts ++ last :: later) = parse (ts ++ [last]) ∧
    (∀ program, parse ts = .ok program ↔ parse (ts ++ [last]) = .ok program) ∧
    ∀ cause, parse ts = .error cause →
      (cause.FindsEnd → cause.position = .unknown ∧
        parse (ts ++ [last]) = .error (cause.placed last.position)) ∧
      (¬ cause.FindsEnd → parse (ts ++ [last]) = .error cause) := by
  obtain ⟨kind, text, p⟩ := last
  obtain rfl : kind = .endOfInput := hlast
  refine ⟨parse_eq_of_atEnd hts .endOfInput .endOfInput, ?_⟩
  have hparse := parse_of_atEnd hts .nil
    (Token.AtEnd.endOfInput : Token.AtEnd [⟨.endOfInput, text, p⟩] p)
  rw [List.append_nil] at hparse
  generalize parse ts = x, parse (ts ++ [⟨.endOfInput, text, p⟩]) = y at hparse ⊢
  cases hparse with
  | @ok _ other h =>
    obtain rfl : _ = other := h
    exact ⟨fun _ => .rfl, fun _ => nofun⟩
  | error h =>
    refine ⟨fun _ => iff_of_false nofun nofun, fun cause hcause => ?_⟩
    cases hcause
    refine ⟨fun hend => ?_, fun hend => ?_⟩
    · obtain ⟨hposition, rfl⟩ := h.eq_placed hend
      exact ⟨hposition, rfl⟩
    · rw [h.eq_of_not_findsEnd hend]

/-- `if x`, with a token for the end of input and one behind it. -/
theorem parse_endOfInput_of_if :
    let ts : List Token := [⟨.keyword .ifWord, "if", ⟨1, 1⟩⟩, ⟨.identifier "x", "x", ⟨1, 4⟩⟩]
    let last : Token := ⟨.endOfInput, "", ⟨1, 5⟩⟩
    let later : List Token := [⟨.keyword .arrow, "->", ⟨1, 6⟩⟩]
    let cause : ParseError := .expected (.punctuation '\x7b') "end of input" .unknown
    (∀ token ∈ ts, token.kind ≠ .endOfInput) ∧ last.kind = .endOfInput ∧
      parse (ts ++ last :: later) = parse (ts ++ [last]) ∧
      (∀ program, parse ts = .ok program ↔ parse (ts ++ [last]) = .ok program) ∧
      parse ts = .error cause ∧ parse (ts ++ [last]) = .error (cause.placed ⟨1, 5⟩) := by
  intro ts last later cause
  have hts : ∀ token ∈ ts, token.kind ≠ .endOfInput := by decide
  have hcause : parse ts = .error cause := by cbv
  have hlast : last.kind = .endOfInput := rfl
  obtain ⟨hlater, hsame, herror⟩ := parse_endOfInput hts hlast later
  exact ⟨hts, hlast, hlater, hsame, hcause, ((herror cause hcause).1 rfl).2⟩

end Arrow
