import Arrow.Proofs.Grammar.Locality

/-!
# One token of lookahead

What is read stands in the first tokens, and besides these only the one token behind them is looked
at (`LooksOneAhead`): whatever begins with the same tokens, through that one, is read alike. So a
form that is complete stays what it is, no matter what is written behind the next token. For a
routine that takes what can be derived this is the exchange of what follows a derivation
(`LooksOneAhead.of_derives`). The routines for conditionals and loops do not look at the word that
introduces them, so each of them reads like a statement with the right word in front
(`LooksOneAhead.of_word`).
-/

namespace Arrow.Grammar

variable {α : Type} {routine other : (tokens : List Token) → Reply α tokens.length} {value : α}
  {used rest ts us : List Token}

/-- The routine takes the first `count` tokens for the value, and leaves those behind them. -/
structure Consumes (routine : (tokens : List Token) → Reply α tokens.length) (ts : List Token)
    (value : α) (count : Nat) : Prop where
  le_length : count ≤ ts.length
  outcome_eq : (routine ts).outcome = (.ok value, ts.drop count)

/--
Where the routine succeeds it takes one token or more from the front, and it takes the same ones for
the same value from all tokens that agree with these through the one behind, or through the end if
there is none.
-/
def LooksOneAhead (routine : (tokens : List Token) → Reply α tokens.length) : Prop :=
  ∀ ts value rest, (routine ts).outcome = (.ok value, rest) →
    ∃ count, 1 ≤ count ∧ rest = ts.drop count ∧ Consumes routine ts value count ∧
      ∀ us : List Token, us.take (count + 1) = ts.take (count + 1) → Consumes routine us value count

theorem Consumes.of_append (h : (routine (used ++ rest)).outcome = (.ok value, rest)) :
    Consumes routine (used ++ rest) value used.length where
  le_length := by
    rw [List.length_append]
    exact Nat.le_add_right ..
  outcome_eq := by rw [h, List.drop_left]

/-- Tokens that agree with others through the one behind `used` begin with `used`, too. -/
theorem exists_of_take_eq (h : us.take (used.length + 1) = (used ++ rest).take (used.length + 1)) :
    ∃ later, us = used ++ later ∧ rest.head? = later.head? := by
  induction used generalizing us with
  | nil =>
    have hhead := congrArg List.head? h
    rw [List.head?_take, List.head?_take] at hhead
    exact ⟨us, rfl, hhead.symm⟩
  | cons token used ih =>
    cases us with
    | nil => exact nomatch h
    | cons first us =>
      obtain ⟨rfl, hbehind⟩ := List.cons.inj h
      obtain ⟨later, rfl, hhead⟩ := ih hbehind
      exact ⟨later, rfl, hhead⟩

theorem LooksOneAhead.of_derives (n : Nonterminal)
    {routine : (tokens : List Token) → Reply n.Result tokens.length}
    (hroutine : ∀ {ts r rest}, (routine ts).outcome = (.ok r, rest) ↔ Derives n ts r rest) :
    LooksOneAhead routine := by
  intro ts value rest h
  obtain ⟨used, rfl, hexchange⟩ := (hroutine.1 h).exchanges
  have hused : 1 ≤ used.length := List.length_pos_of_ne_nil (ne_nil_of_outcome h)
  refine ⟨used.length, hused, List.drop_left.symm, .of_append h, fun us hus => ?_⟩
  obtain ⟨later, rfl, hhead⟩ := exists_of_take_eq hus
  exact .of_append (hroutine.2 (hexchange later (.inl hhead)))

/-! ## Words that are not looked at -/

/-- Whatever the first token is, the routine reads like the other one with `kind` in its place. -/
def SkipsWord (kind : TokenKind) (routine other : (tokens : List Token) → Reply α tokens.length) :
    Prop :=
  ∀ word ts,
    (routine (word :: ts)).outcome = (other (⟨kind, word.text, word.position⟩ :: ts)).outcome

theorem SkipsWord.consumes_iff {kind : TokenKind} (h : SkipsWord kind routine other) {word : Token}
    {count : Nat} :
    Consumes routine (word :: ts) value (count + 1) ↔
      Consumes other (⟨kind, word.text, word.position⟩ :: ts) value (count + 1) := by
  constructor
  · rintro ⟨hle, houtcome⟩
    exact ⟨hle, (h word ts).symm.trans houtcome⟩
  · rintro ⟨hle, houtcome⟩
    exact ⟨hle, (h word ts).trans houtcome⟩

theorem LooksOneAhead.of_word {kind : TokenKind} (hother : LooksOneAhead other)
    (hword : SkipsWord kind routine other) : LooksOneAhead routine := by
  intro ts value rest h
  cases ts with
  | nil => exact absurd (Reply.length_lt_of_outcome h) (Nat.not_lt_zero _)
  | cons word ts =>
    obtain ⟨count, hcount, hrest, hconsumes, hagree⟩ :=
      hother _ value rest ((hword word ts).symm.trans h)
    obtain ⟨count, rfl⟩ := Nat.exists_eq_add_of_le' hcount
    refine ⟨count + 1, hcount, hrest, hword.consumes_iff.2 hconsumes, fun us hus => ?_⟩
    -- The tokens `us` begin with `word`: it may be replaced in both lists.
    cases us with
    | nil => exact nomatch hus
    | cons first us =>
      obtain ⟨rfl, hbehind⟩ := List.cons.inj hus
      refine hword.consumes_iff.2 (hagree _ ?_)
      rw [List.take_succ_cons, List.take_succ_cons, hbehind]

theorem conditional_skipsWord : SkipsWord (.keyword .ifWord) conditional statement :=
  fun word ts => by rw [statement, conditional, conditional]

theorem whileLoop_skipsWord : SkipsWord (.keyword .whileWord) whileLoop statement :=
  fun word ts => by rw [statement, whileLoop, whileLoop]

theorem forLoop_skipsWord : SkipsWord (.keyword .forWord) forLoop statement :=
  fun word ts => by rw [statement, forLoop, forLoop]

/-! ## The forms of the grammar -/

theorem expression_looksOneAhead : LooksOneAhead expression :=
  .of_derives (.entry .expression) ⟨derives_expression, Derives.takes⟩

theorem statement_looksOneAhead : LooksOneAhead statement :=
  .of_derives .statement ⟨derives_statement, Derives.takes⟩

theorem block_looksOneAhead : LooksOneAhead block :=
  .of_derives .block ⟨derives_block, Derives.takes⟩

/--
What expressions, statements, blocks, conditionals and both kinds of loops take from the front, and
what for, is settled by the tokens that they take and the one behind them.
-/
theorem forms_lookOneAhead :
    LooksOneAhead expression ∧ LooksOneAhead statement ∧ LooksOneAhead block ∧
      LooksOneAhead conditional ∧ LooksOneAhead whileLoop ∧ LooksOneAhead forLoop :=
  ⟨expression_looksOneAhead, statement_looksOneAhead, block_looksOneAhead,
    statement_looksOneAhead.of_word conditional_skipsWord,
    statement_looksOneAhead.of_word whileLoop_skipsWord,
    statement_looksOneAhead.of_word forLoop_skipsWord⟩

/-- `if x { }` in front of `f`, with anything behind that. -/
theorem forms_lookOneAhead_of_if :
    let ts : List Token := [TokenKind.keyword .ifWord, .identifier "x", .punctuation '\x7b',
      .punctuation '\x7d', .identifier "f"].map (Token.mk · "" .start)
    let result : Statement := .conditional [⟨.var "x" .start, []⟩] none .start
    (conditional ts).outcome = (.ok result, ts.drop 4) ∧
      ∀ later, (conditional (ts ++ later)).outcome = (.ok result, (ts ++ later).drop 4) := by
  intro ts result
  have hts : (conditional ts).outcome = (.ok result, ts.drop 4) := by cbv
  obtain ⟨-, -, -, hconditional, -, -⟩ := forms_lookOneAhead
  obtain ⟨count, -, hrest, -, hagree⟩ := hconditional ts result _ hts
  have hlength := congrArg List.length hrest
  rw [List.length_drop, List.length_drop] at hlength
  obtain rfl : count = 4 := by
    change 5 - 4 = 5 - count at hlength
    omega
  exact ⟨hts, fun later => (hagree (ts ++ later) rfl).outcome_eq⟩

end Arrow.Grammar
