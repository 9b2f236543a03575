import Arrow.Proofs.Grammar.Soundness

/-!
# Where reading arrives

`Arrives n tokens inner` says that the routine of the nonterminal, started at `tokens`, has read
what precedes `inner` and goes on there with a statement, at any depth. An error of that statement
is the error of the whole (`Arrives.fails`, `ArrivesInProgram.parse_eq`): nothing that is read
before or around it can change it.
-/

namespace Arrow

theorem Reply.outcome_andThen_error {α β : Type} {a b : Nat} {r : Reply α a}
    {f : α → (rest : List Token) → rest.length < a → Reply β b} {cause : ParseError}
    {rest : List Token} (h : r.outcome = (.error cause, rest)) :
    (r.andThen f).outcome = (.error cause, rest) := by
  cases r with
  | ok value mid hlt => exact nomatch (Prod.mk.inj h).1
  | error cause' mid =>
    obtain ⟨hcause, rfl⟩ := Prod.mk.inj h
    cases hcause
    rfl

theorem Reply.outcome_map_error {α β : Type} {a : Nat} {r : Reply α a} {f : α → β}
    {cause : ParseError} {rest : List Token} (h : r.outcome = (.error cause, rest)) :
    (r.map f).outcome = (.error cause, rest) := by
  rw [Reply.outcome_map, h]
  rfl

namespace Grammar

/-- Reading the nonterminal from the tokens arrives at the statement that begins with `inner`. -/
inductive Arrives (inner : List Token) : Nonterminal → List Token → Prop
  | statement : Arrives inner .statement inner
  | function {word text p ts mid head} :
      Derives (.header p word) ts head mid → Arrives inner .block mid →
      Arrives inner .statement (⟨.keyword (.fn word), text, p⟩ :: ts)
  | conditional_first {text p ts} :
      Arrives inner .branch ts → Arrives inner .statement (⟨.keyword .ifWord, text, p⟩ :: ts)
  | conditional_others {text p ts mid first} :
      Derives .branch ts first mid → Arrives inner .otherBranches mid →
      Arrives inner .statement (⟨.keyword .ifWord, text, p⟩ :: ts)
  | whileLoop {text p ts} :
      Arrives inner .branch ts → Arrives inner .statement (⟨.keyword .whileWord, text, p⟩ :: ts)
  | forLoop_init {text p ts} :
      Arrives inner .statement (skipArrow ts) →
      Arrives inner .statement (⟨.keyword .forWord, text, p⟩ :: ts)
  | forLoop_update {text text₁ text₂ p p₁ p₂ ts mid₁ mid₂ init condition} :
      Derives .statement (skipArrow ts) init (⟨.punctuation ';', text₁, p₁⟩ :: mid₁) →
      Derives (.entry .expression) mid₁ condition (⟨.punctuation ';', text₂, p₂⟩ :: mid₂) →
      Arrives inner .statement mid₂ →
      Arrives inner .statement (⟨.keyword .forWord, text, p⟩ :: ts)
  | forLoop_body {text text₁ text₂ p p₁ p₂ ts mid₁ mid₂ mid₃ init condition update} :
      Derives .statement (skipArrow ts) init (⟨.punctuation ';', text₁, p₁⟩ :: mid₁) →
      Derives (.entry .expression) mid₁ condition (⟨.punctuation ';', text₂, p₂⟩ :: mid₂) →
      Derives .statement mid₂ update mid₃ → Arrives inner .block mid₃ →
      Arrives inner .statement (⟨.keyword .forWord, text, p⟩ :: ts)
  | block {text p ts} :
      Arrives inner .statements ts → Arrives inner .block (⟨.punctuation '\x7b', text, p⟩ :: ts)
  | statements_first {token ts} :
      token.kind.beginsStatement → Arrives inner .statement (token :: ts) →
      Arrives inner .statements (token :: ts)
  | statements_others {ts mid first} :
      Derives .statement ts first mid → Arrives inner .statements mid →
      Arrives inner .statements ts
  | branch {ts mid condition} :
      Derives (.entry .expression) (skipArrow ts) condition mid → Arrives inner .block mid →
      Arrives inner .branch ts
  | otherBranches_first {text p ts} :
      Arrives inner .branch ts →
      Arrives inner .otherBranches (⟨.keyword .elifWord, text, p⟩ :: ts)
  | otherBranches_others {text p ts mid first} :
      Derives .branch ts first mid → Arrives inner .otherBranches mid →
      Arrives inner .otherBranches (⟨.keyword .elifWord, text, p⟩ :: ts)
  | otherBranches_else {text p ts} :
      Arrives inner .block ts → Arrives inner .otherBranches (⟨.keyword .elseWord, text, p⟩ :: ts)

/-- The routine of a nonterminal with statements in it stops with the error. -/
def Nonterminal.Fails : Nonterminal → List Token → ParseError → List Token → Prop
  | statement, ts, cause, rest => (Grammar.statement ts).outcome = (.error cause, rest)
  | block, ts, cause, rest => (Grammar.block ts).outcome = (.error cause, rest)
  | statements, ts, cause, rest => (Grammar.statements ts).outcome = (.error cause, rest)
  | branch, ts, cause, rest => (Grammar.branch ts).outcome = (.error cause, rest)
  | otherBranches, ts, cause, rest => (Grammar.otherBranches ts).outcome = (.error cause, rest)
  | _, _, _, _ => False

variable {n : Nonterminal} {ts inner rest : List Token} {cause : ParseError}

theorem Arrives.fails (h : Arrives inner n ts)
    (hfails : (Grammar.statement inner).outcome = (.error cause, rest)) :
    n.Fails ts cause rest := by
  induction h with
  | statement => exact hfails
  | function hhead _ ih =>
    show (Grammar.statement _).outcome = _
    rw [Grammar.statement]
    refine Reply.outcome_andThen hhead.takes fun _ => ?_
    rw [Reply.outcome_upTo]
    exact Reply.outcome_map_error ih
  | conditional_first _ ih =>
    show (Grammar.statement _).outcome = _
    rw [Grammar.statement, conditional]
    exact Reply.outcome_andThen_error ih
  | conditional_others hfirst _ ih =>
    show (Grammar.statement _).outcome = _
    rw [Grammar.statement, conditional]
    refine Reply.outcome_andThen hfirst.takes fun _ => ?_
    rw [Reply.outcome_upTo]
    exact Reply.outcome_map_error ih
  | whileLoop _ ih =>
    show (Grammar.statement _).outcome = _
    rw [Grammar.statement, Grammar.whileLoop, Reply.outcome_upTo]
    exact Reply.outcome_map_error ih
  | forLoop_init _ ih =>
    show (Grammar.statement _).outcome = _
    rw [Grammar.statement, Grammar.forLoop]
    exact Reply.outcome_andThen_error ih
  | forLoop_update hinit hcondition _ ih =>
    show (Grammar.statement _).outcome = _
    rw [Grammar.statement, Grammar.forLoop]
    refine Reply.outcome_andThen hinit.takes fun _ => ?_
    refine Reply.outcome_andThen (outcome_mark rfl) fun _ => ?_
    refine Reply.outcome_andThen hcondition.takes fun _ => ?_
    refine Reply.outcome_andThen (outcome_mark rfl) fun _ => ?_
    exact Reply.outcome_andThen_error ih
  | forLoop_body hinit hcondition hupdate _ ih =>
    show (Grammar.statement _).outcome = _
    rw [Grammar.statement, Grammar.forLoop]
    refine Reply.outcome_andThen hinit.takes fun _ => ?_
    refine Reply.outcome_andThen (outcome_mark rfl) fun _ => ?_
    refine Reply.outcome_andThen hcondition.takes fun _ => ?_
    refine Reply.outcome_andThen (outcome_mark rfl) fun _ => ?_
    refine Reply.outcome_andThen hupdate.takes fun _ => ?_
    rw [Reply.outcome_upTo]
    exact Reply.outcome_map_error ih
  | block _ ih =>
    show (Grammar.block _).outcome = _
    rw [Grammar.block]
    refine Reply.outcome_andThen (outcome_mark rfl) fun _ => ?_
    rw [Reply.outcome_upTo]
    exact ih
  | statements_first hbegins _ ih =>
    refine (outcome_statements_of_begins hbegins).trans ?_
    exact Reply.outcome_andThen_error ih
  | statements_others hfirst _ ih =>
    obtain ⟨token, behind, rfl, hbegins⟩ := hfirst.beginsStatement
    refine (outcome_statements_of_begins hbegins).trans ?_
    refine Reply.outcome_andThen hfirst.takes fun _ => ?_
    rw [Reply.outcome_upTo]
    exact Reply.outcome_map_error ih
  | branch hcondition _ ih =>
    show (Grammar.branch _).outcome = _
    rw [Grammar.branch]
    refine Reply.outcome_andThen hcondition.takes fun _ => ?_
    rw [Reply.outcome_upTo]
    exact Reply.outcome_map_error ih
  | otherBranches_first _ ih =>
    show (Grammar.otherBranches _).outcome = _
    rw [Grammar.otherBranches]
    exact Reply.outcome_andThen_error ih
  | otherBranches_others hfirst _ ih =>
    show (Grammar.otherBranches _).outcome = _
    rw [Grammar.otherBranches]
    refine Reply.outcome_andThen hfirst.takes fun _ => ?_
    rw [Reply.outcome_upTo]
    exact Reply.outcome_map_error ih
  | otherBranches_else _ ih =>
    show (Grammar.otherBranches _).outcome = _
    rw [Grammar.otherBranches, Reply.outcome_upTo]
    exact Reply.outcome_map_error ih

/-! ## Programs -/

/-- Reading the tokens up to their end arrives at the statement that begins with `inner`. -/
inductive ArrivesInProgram (inner : List Token) : List Token → Prop
  | first {token ts} :
      token.kind.beginsStatement → Arrives inner .statement (token :: ts) →
      ArrivesInProgram inner (token :: ts)
  | others {ts mid first} :
      Derives .statement ts first mid → ArrivesInProgram inner mid → ArrivesInProgram inner ts

theorem ArrivesInProgram.statementsToEnd_eq (h : ArrivesInProgram inner ts)
    (hfails : (Grammar.statement inner).outcome = (.error cause, rest)) :
    statementsToEnd ts = .error cause := by
  induction h with
  | first hbegins harrives => exact statementsToEnd_of_begins hbegins (harrives.fails hfails)
  | others hfirst _ ih =>
    obtain ⟨token, behind, rfl, hbegins⟩ := hfirst.beginsStatement
    rw [statementsToEnd_of_begins hbegins hfirst.takes, ih]
    rfl

/-- The error of a statement that reading arrives at is the error of the program. -/
theorem ArrivesInProgram.parse_eq (h : ArrivesInProgram inner (ts.filter (!·.isComment)))
    (hfails : (Grammar.statement inner).outcome = (.error cause, rest)) :
    parse ts = .error cause := by
  unfold parse
  rw [h.statementsToEnd_eq hfails]
  rfl

end Grammar

end Arrow
