import Arrow.Proofs.Evaluation.Correspondence
import Arrow.Proofs.Evaluation.Outcome
import Arrow.Proofs.Evaluation.Termination
import Arrow.Proofs.Grammar.Parametricity
import Arrow.Proofs.Token.Lossless
import Mathlib

/-!
# Layout

Moved copies of a program run alike (`Program.Moved.ending`). So what a run comes to depends
on the layout of its source text only in the positions of errors: sources that are spelt with the
same tokens, comments apart, come to the same, and where they fail the errors stand at the same
token of both (`RunsTo.of_layout`).
-/

namespace Arrow

/-! ## Programs -/

section

variable {R : Position → Position → Prop}

/-- Positions correspond if they are related, and functions if they are moved copies. -/
def Correspondence.moved (R : Position → Position → Prop) : Correspondence where
  positions := R
  functions := Function.Moved R
  header := fun h => by
    cases h with
    | mk hheader _ => exact hheader

variable {ctx ctx' : Context}

mutual

theorem Statement.Moved.corresponds_run
    (hctx : Context.Corresponds (.moved R) ctx ctx') : ∀ {statement statement' : Statement},
      statement.Moved R statement' →
      Action.Corresponds (.moved R) (Flow.Moved R) (statement.run ctx) (statement'.run ctx')
  | _, _, .declaration htype hinit hp => Statement.corresponds_declaration hctx htype hinit hp
  | _, _, .assignment hvalue hp => Statement.corresponds_assignment hctx hvalue hp
  | _, _, .function h => Statement.corresponds_function h
  | _, _, .returnValue hvalue hp => Statement.corresponds_returnValue hctx hvalue hp
  | _, _, .expression hexpr _ => Statement.corresponds_expression hctx hexpr
  | _, _, .conditional hbranches hotherwise _ => by
    refine (hbranches.corresponds_runBranches hctx).bind fun flow flow' hflow => ?_
    cases hflow with
    | none => exact hotherwise.corresponds_runOtherwise hctx
    | some hflow => exact Action.corresponds_pure hflow
  | _, _, .whileLoop hcondition hbody _ =>
    Statement.corresponds_whileLoop hctx hcondition (hbody.corresponds_runAll hctx)
  | _, _, .forLoop hinit hcondition hupdate hbody _ => by
    refine Flow.corresponds_andThen (hinit.corresponds_run hctx) ?_
    rw [← hctx.rounds]
    exact Flow.corresponds_repeatWhile (Expr.corresponds_eval hctx.call hcondition)
      (Flow.corresponds_andThen (hbody.corresponds_runAll hctx) (hupdate.corresponds_run hctx)) _

theorem Statement.AllMoved.corresponds_runAll
    (hctx : Context.Corresponds (.moved R) ctx ctx') : ∀ {statements statements' : List Statement},
      Statement.AllMoved R statements statements' →
      Action.Corresponds (.moved R) (Flow.Moved R) (Statement.runAll ctx statements)
        (Statement.runAll ctx' statements')
  | _, _, .nil => Action.corresponds_pure .normal
  | _, _, .cons h hrest =>
    Flow.corresponds_andThen (h.corresponds_run hctx) (hrest.corresponds_runAll hctx)

theorem Statement.BranchesMoved.corresponds_runBranches
    (hctx : Context.Corresponds (.moved R) ctx ctx') : ∀ {branches branches' : List Branch},
      Statement.BranchesMoved R branches branches' →
      Action.Corresponds (.moved R) (Option.Rel (Flow.Moved R)) (Statement.runBranches ctx branches)
        (Statement.runBranches ctx' branches')
  | _, _, .nil => Action.corresponds_pure .none
  | ⟨_, _⟩ :: _, ⟨_, _⟩ :: _, .cons hcondition hbody hrest => by
    refine (Expr.corresponds_eval hctx.call hcondition).bind ?_
    rintro value _ rfl
    split
    · exact (hbody.corresponds_runAll hctx).bind fun _ _ hflow =>
        Action.corresponds_pure (.some hflow)
    · exact hrest.corresponds_runBranches hctx

theorem Statement.OtherwiseMoved.corresponds_runOtherwise
    (hctx : Context.Corresponds (.moved R) ctx ctx') :
    ∀ {otherwise otherwise' : Option (List Statement)},
      Statement.OtherwiseMoved R otherwise otherwise' →
      Action.Corresponds (.moved R) (Flow.Moved R) (Statement.runOtherwise ctx otherwise)
        (Statement.runOtherwise ctx' otherwise')
  | _, _, .none => Action.corresponds_pure .normal
  | _, _, .some h => h.corresponds_runAll hctx

end

theorem Context.corresponds_outermost (config : Config) (rounds : Nat) :
    Context.Corresponds (.moved R) (.outermost config rounds) (.outermost config rounds) := by
  refine ⟨rfl, rfl, corresponds_invoke ?_ config rounds config.maxCallDepth⟩
  intro f g h ctx ctx' hctx
  cases h with
  | mk _ hbody => exact hbody.corresponds_runAll hctx

/-- Moved copies of a program come to the same, but for positions, and leave the console alike. -/
theorem Program.Moved.ending {σ : Type} [Console σ] {program program' : Program}
    (h : program.Moved R program') (config : Config) (rounds : Nat) (console : σ) :
    let ending := program.ending (.outermost config rounds) console
    let ending' := program'.ending (.outermost config rounds) console
    Matched (Halt.Moved R) Eq ending.1.1 ending'.1.1 ∧ ending.2 = ending'.2 := by
  have hctx := Context.corresponds_outermost (R := R) config rounds
  have hrun := Program.corresponds_run hctx (h.corresponds_runAll hctx)
  obtain ⟨⟨hresult, _⟩, hconsole⟩ :=
    (hrun .initial .initial State.corresponds_initial).conduct console
  exact ⟨hresult, hconsole⟩

end

/-! ## Tokens -/

namespace Token

variable {R E : Position → Position → Prop}

/-- The tokens that make up a program: all but the comments. -/
def code (tokens : List Token) : List Token :=
  tokens.filter (!·.isComment)

/-- The kinds and the texts of tokens. -/
def spelling (tokens : List Token) : List (TokenKind × String) :=
  tokens.map fun token => (token.kind, token.text)

/-- The positions of the tokens with the same index in both lists. -/
def SameIndex (ts us : List Token) (p q : Position) : Prop :=
  ∃ i : Nat, ts[i]?.map (·.position) = some p ∧ us[i]?.map (·.position) = some q

theorem allMoved_of_lossless {before source : List Char} {ts : List Token}
    (h : Lossless before source ts)
    (hR : ∀ token ∈ ts, token.kind ≠ .endOfInput → R token.position token.position)
    (hE : ∀ token ∈ ts, E token.position token.position) : AllMoved R E ts ts := by
  induction h with
  | last _ => exact .last (hE _ List.mem_cons_self)
  | piece _ hkind _ _ _ ih =>
    rw [List.forall_mem_cons] at hR hE
    exact .cons hkind (hR.1 hkind) (ih hR.2 hE.2)

theorem AllMoved.code {ts us : List Token} (h : AllMoved R E ts us) :
    AllMoved R E (code ts) (code us) := by
  induction h with
  | last hp => exact .last hp
  | @cons kind text p q ts us hkind hp _ ih =>
    unfold Token.code at ih ⊢
    rw [List.filter_cons, List.filter_cons]
    by_cases hcomment : kind = .comment
    · simpa [isComment, hcomment] using ih
    · simpa [isComment, hcomment] using AllMoved.cons hkind hp ih

theorem AllMoved.of_spelling {ts vs us : List Token} {S : Position → Position → Prop}
    (h : AllMoved R E ts vs) (hsame : spelling ts = spelling us)
    (hS : ∀ p q, SameIndex ts us p q → S p q) : AllMoved S S ts us := by
  induction h generalizing us with
  | @last text _ p _ _ =>
    obtain ⟨⟨kind, text', q⟩, rest, rfl, htoken, hrest⟩ := List.map_eq_cons_iff.1 hsame.symm
    obtain rfl := List.map_eq_nil_iff.1 hrest
    change (kind, text') = (.endOfInput, text) at htoken
    cases htoken
    exact .last (hS p q ⟨0, rfl, rfl⟩)
  | @cons kind text p _ ts _ hkind _ _ ih =>
    obtain ⟨⟨kind', text', q⟩, rest, rfl, htoken, hrest⟩ := List.map_eq_cons_iff.1 hsame.symm
    change (kind', text') = (kind, text) at htoken
    cases htoken
    refine .cons hkind (hS p q ⟨0, rfl, rfl⟩) (ih hrest.symm ?_)
    rintro p q ⟨i, hp, hq⟩
    exact hS p q ⟨i + 1, hp, hq⟩

end Token

/-! ## Source texts -/

section

variable {σ : Type} [Console σ] {config : Config} {rounds : Nat} {source : String}
  {ts : List Token} {console : σ}

theorem conduct_runSource_of_parse {program : Program} (htokens : tokenize source = .ok ts)
    (hparse : parse ts = .ok program) :
    (runSource config rounds source).conduct console =
      ((program.ending (.outermost config rounds) console).1.1,
        (program.ending (.outermost config rounds) console).2) := by
  unfold runSource
  rw [htokens]
  dsimp only
  rw [hparse]
  exact Dialogue.conduct_bind _ _ _

theorem conduct_runSource_of_parseError {cause : ParseError} (htokens : tokenize source = .ok ts)
    (hparse : parse ts = .error cause) :
    (runSource config rounds source).conduct console =
      (.error (.error (.parse cause)), console) := by
  unfold runSource
  rw [htokens]
  dsimp only
  rw [hparse]
  rfl

theorem Halt.Moved.exists_of_mapError {R : Position → Position → Prop}
    {result : Except Error Environment} {ending : Except Halt Environment}
    (h : Matched (Halt.Moved R) Eq (result.mapError .error) ending) :
    ∃ result', ending = result'.mapError .error ∧ Matched (Error.Moved R) Eq result result' := by
  cases result with
  | ok environment =>
    cases h with
    | ok h => exact ⟨.ok environment, congrArg _ h.symm, .ok rfl⟩
  | error cause =>
    cases h with
    | error h =>
      cases h with
      | @error _ cause' h => exact ⟨.error (.runtime cause'), rfl, .error h⟩

theorem conduct_runSource_moved {source' : String} {us : List Token}
    {R : Position → Position → Prop} {result : Except Error Environment} {after : σ}
    (hts : tokenize source = .ok ts) (hus : tokenize source' = .ok us)
    (h : Token.AllMoved R R (Token.code ts) (Token.code us))
    (hrun : (runSource config rounds source).conduct console = (result.mapError .error, after)) :
    ∃ result', (runSource config rounds source').conduct console =
        (result'.mapError .error, after) ∧ Matched (Error.Moved R) Eq result result' := by
  have hparse := parse_moved h
  cases hx : parse ts with
  | ok program =>
    rw [hx] at hparse
    cases hy : parse us with
    | error cause' =>
      rw [hy] at hparse
      cases hparse
    | ok program' =>
      rw [hy] at hparse
      obtain ⟨hprogram⟩ := hparse
      have hending := Program.Moved.ending hprogram config rounds console
      rw [conduct_runSource_of_parse hts hx] at hrun
      obtain ⟨hresult, hafter⟩ := Prod.mk.inj hrun
      dsimp only at hending
      rw [hresult, hafter] at hending
      obtain ⟨result', hresult', hmatched⟩ := Halt.Moved.exists_of_mapError hending.1
      rw [conduct_runSource_of_parse hus hy]
      exact ⟨result', Prod.ext hresult' hending.2.symm, hmatched⟩
  | error cause =>
    rw [hx] at hparse
    cases hy : parse us with
    | ok program' =>
      rw [hy] at hparse
      cases hparse
    | error cause' =>
      rw [conduct_runSource_of_parseError hts hx] at hrun
      obtain ⟨hresult, rfl⟩ := Prod.mk.inj hrun
      obtain rfl : .error (.parse cause) = result := RunsTo.mapError_injective hresult
      rw [hy] at hparse
      cases hparse with
      | error hcause =>
        exact ⟨.error (.parse cause'), conduct_runSource_of_parseError hus hy,
          .error (hcause.mono fun _ _ h => h.elim id id)⟩

/--
Sources that are spelt with the same tokens, comments apart, come to the same with any console; if
they fail, it is for the same reason and at tokens with the same index.
-/
theorem RunsTo.of_layout {source' : String} {us : List Token} {result : Except Error Environment}
    {after : σ} (hts : tokenize source = .ok ts) (hus : tokenize source' = .ok us)
    (hsame : Token.spelling (Token.code ts) = Token.spelling (Token.code us))
    (h : RunsTo config source console result after) :
    ∃ result', RunsTo config source' console result' after ∧
      Matched (Error.Moved (Token.SameIndex (Token.code ts) (Token.code us))) Eq
        result result' := by
  obtain ⟨rounds, hrun⟩ := h
  have hlossless := tokenize_lossless source
  rw [hts] at hlossless
  have htokens : Token.AllMoved (fun _ _ => True) (fun _ _ => True) ts ts :=
    Token.allMoved_of_lossless hlossless (fun _ _ _ => trivial) fun _ _ => trivial
  have hmoved := htokens.code.of_spelling hsame fun _ _ => id
  obtain ⟨result', hrun', hmatched⟩ := conduct_runSource_moved hts hus hmoved hrun
  exact ⟨result', ⟨rounds, hrun'⟩, hmatched⟩

/-- A failing program on one line, and with comments on two lines. -/
theorem runsTo_of_layout_on_two_lines :
    let line := "print(1)print(x)"
    let lines := ":: one\nprint(1) print( ::>two<:: x)"
    let tokens (source : String) := (tokenize source).toOption.getD []
    let result : Except Error Environment := .error (.runtime (.undefinedVariable "x" ⟨1, 15⟩))
    tokenize line = .ok (tokens line) ∧ tokenize lines = .ok (tokens lines) ∧
      Token.spelling (Token.code (tokens line)) = Token.spelling (Token.code (tokens lines)) ∧
      RunsTo .standard line (⟨[], ""⟩ : Transcript) result ⟨[], "1\n"⟩ ∧
      ∃ result', RunsTo .standard lines (⟨[], ""⟩ : Transcript) result' ⟨[], "1\n"⟩ ∧
        Matched (Error.Moved (Token.SameIndex (Token.code (tokens line))
          (Token.code (tokens lines)))) Eq result result' := by
  intro line lines tokens result
  have hline : tokenize line = .ok (tokens line) := by
    simp only [line, tokens]
    cbv
  have hlines : tokenize lines = .ok (tokens lines) := by
    simp only [lines, tokens]
    cbv
  have hsame : Token.spelling (Token.code (tokens line)) =
      Token.spelling (Token.code (tokens lines)) := by
    simp only [line, lines, tokens]
    cbv
  have hrun : RunsTo .standard line (⟨[], ""⟩ : Transcript) result ⟨[], "1\n"⟩ := ⟨0, by cbv⟩
  exact ⟨hline, hlines, hsame, hrun, hrun.of_layout hline hlines hsame⟩

end

end Arrow
