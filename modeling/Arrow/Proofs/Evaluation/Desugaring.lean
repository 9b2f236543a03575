import Arrow.Proofs.Evaluation.Correspondence
import Arrow.Proofs.Evaluation.Nodes
import Arrow.Proofs.Evaluation.Termination

/-!
# Loops and conditionals in terms of simpler ones

A loop with three parts is its first part and a loop with a condition whose body ends in its update,
and a conditional with many branches is one with a single branch whose other case holds the rest.
Written out so everywhere, in functions too, a program comes to the same
(`Program.isCore_desugared_and_endsWith_iff`): statements correspond to the lists that they are
replaced by, and functions to those with the replaced bodies.
-/

namespace Arrow

/-! ## The replacement -/

mutual

/-- The statements that take the place of a statement. -/
def Statement.desugared : Statement → List Statement
  | .declaration kind name type init p => [.declaration kind name type init p]
  | .assignment name value p => [.assignment name value p]
  | .function definition => [.function definition.desugared]
  | .returnValue value p => [.returnValue value p]
  | .expression expr p => [.expression expr p]
  | .conditional branches otherwise p =>
    Statement.desugaredBranches p (Statement.desugaredOtherwise otherwise) branches
  | .whileLoop condition body p => [.whileLoop condition (Statement.desugaredAll body) p]
  | .forLoop init condition update body p =>
    init.desugared ++ [.whileLoop condition (Statement.desugaredAll body ++ update.desugared) p]

/-- The function with the statements of its body replaced. -/
def Function.desugared : Function → Function
  | ⟨name, params, returnType, body, p⟩ =>
    ⟨name, params, returnType, Statement.desugaredAll body, p⟩

def Statement.desugaredAll : List Statement → List Statement
  | [] => []
  | statement :: statements => statement.desugared ++ Statement.desugaredAll statements

/-- Conditionals at `p` with one branch each, the later ones in the other case of the earlier. -/
def Statement.desugaredBranches (p : Position) (otherwise : Option (List Statement)) :
    List Branch → List Statement
  | [] => otherwise.getD []
  | [⟨condition, body⟩] => [.conditional [⟨condition, Statement.desugaredAll body⟩] otherwise p]
  | ⟨condition, body⟩ :: next :: branches =>
    [.conditional [⟨condition, Statement.desugaredAll body⟩]
      (some (Statement.desugaredBranches p otherwise (next :: branches))) p]

def Statement.desugaredOtherwise : Option (List Statement) → Option (List Statement)
  | none => none
  | some body => some (Statement.desugaredAll body)

end

def Program.desugared (program : Program) : Program :=
  ⟨Statement.desugaredAll program.body⟩

/-! ## What is replaced -/

/-- Not a loop with three parts, and with one branch if it is a conditional. -/
def Statement.IsCore : Statement → Prop
  | .conditional branches _ _ => branches.length = 1
  | .forLoop .. => False
  | _ => True

/-- All statements in a list are core, those in functions included. -/
def Statement.AllCore (statements : List Statement) : Prop :=
  Statement.AllIn (fun _ => True) Statement.IsCore statements

def Statement.OtherwiseCore (otherwise : Option (List Statement)) : Prop :=
  Statement.AllInOtherwise (fun _ => True) Statement.IsCore otherwise

def Program.IsCore (program : Program) : Prop :=
  program.All (fun _ => True) Statement.IsCore

namespace Statement

theorem allCore_singleton {statement : Statement}
    (h : statement.All (fun _ => True) IsCore) : AllCore [statement] :=
  ⟨h, trivial⟩

theorem AllCore.append {statements others : List Statement} (h : AllCore statements)
    (hothers : AllCore others) : AllCore (statements ++ others) := by
  induction statements with
  | nil => exact hothers
  | cons statement statements ih => exact ⟨h.1, ih h.2⟩

theorem OtherwiseCore.getD {otherwise : Option (List Statement)} (h : OtherwiseCore otherwise) :
    AllCore (otherwise.getD []) := by
  cases otherwise with
  | none => trivial
  | some body => exact h

/-- A conditional with one branch. -/
theorem allCore_conditional {condition : Expr} {body : List Statement}
    {otherwise : Option (List Statement)} (hbody : AllCore body)
    (hotherwise : OtherwiseCore otherwise) (p : Position) :
    AllCore [.conditional [⟨condition, body⟩] otherwise p] :=
  allCore_singleton ⟨rfl, ⟨condition.all_true, hbody, trivial⟩, hotherwise⟩

mutual

theorem allCore_desugared : ∀ statement : Statement, AllCore statement.desugared
  | .declaration _ _ _ init _ => allCore_singleton ⟨trivial, init.all_true⟩
  | .assignment _ value _ => allCore_singleton ⟨trivial, value.all_true⟩
  | .function ⟨_, _, _, body, _⟩ => allCore_singleton ⟨trivial, allCore_desugaredAll body⟩
  | .returnValue value _ => allCore_singleton ⟨trivial, value.all_true⟩
  | .expression expr _ => allCore_singleton ⟨trivial, expr.all_true⟩
  | .conditional branches otherwise p =>
    allCore_desugaredBranches p (otherwiseCore_desugaredOtherwise otherwise) branches
  | .whileLoop condition body _ =>
    allCore_singleton ⟨trivial, condition.all_true, allCore_desugaredAll body⟩
  | .forLoop init condition update body _ =>
    (allCore_desugared init).append (allCore_singleton ⟨trivial, condition.all_true,
      (allCore_desugaredAll body).append (allCore_desugared update)⟩)

theorem allCore_desugaredAll : ∀ statements, AllCore (desugaredAll statements)
  | [] => trivial
  | statement :: statements =>
    (allCore_desugared statement).append (allCore_desugaredAll statements)

theorem allCore_desugaredBranches (p : Position) {otherwise : Option (List Statement)}
    (h : OtherwiseCore otherwise) : ∀ branches, AllCore (desugaredBranches p otherwise branches)
  | [] => h.getD
  | [⟨_, body⟩] => allCore_conditional (allCore_desugaredAll body) h p
  | ⟨_, body⟩ :: next :: branches =>
    allCore_conditional (allCore_desugaredAll body)
      (show OtherwiseCore (some _) from allCore_desugaredBranches p h (next :: branches)) p

theorem otherwiseCore_desugaredOtherwise :
    ∀ otherwise, OtherwiseCore (desugaredOtherwise otherwise)
  | none => trivial
  | some body => allCore_desugaredAll body

end

end Statement

/-! ## Runs -/

/-- Positions correspond if they are equal, and a function to the one with the replaced body. -/
def Correspondence.desugared : Correspondence where
  positions := Eq
  functions f g := g = f.desugared
  header := by
    rintro ⟨name, params, returnType, body, p⟩ _ rfl
    exact ⟨rfl, List.forall₂_same.2 fun param _ => param.moved_refl fun _ => rfl,
      optionRel_refl (DeclaredType.moved_refl fun _ => rfl) returnType, rfl⟩

/-- The actions do the same, once functions are replaced. -/
abbrev Action.Desugars (first second : Action Flow) : Prop :=
  Action.Corresponds .desugared (Flow.Moved Eq) first second

variable {ctx ctx' : Context}

namespace Statement

/-- A conditional with one branch runs like its branches, and otherwise like its other case. -/
theorem desugars_conditional (hctx : Context.Corresponds .desugared ctx ctx') {condition : Expr}
    {body body' : List Statement} {others : List Branch}
    {otherwise otherwise' : Option (List Statement)} {p : Position}
    (hbody : Action.Desugars (runAll ctx body) (runAll ctx' body'))
    (hothers : Action.Desugars ((conditional others otherwise p).run ctx)
      (runOtherwise ctx' otherwise')) :
    Action.Desugars ((conditional (⟨condition, body⟩ :: others) otherwise p).run ctx)
      (runAll ctx' [.conditional [⟨condition, body'⟩] otherwise' p]) := by
  rw [runAll_singleton]
  unfold run runBranches
  rw [bind_assoc, bind_assoc]
  -- Where the condition fails, the other branches run as a conditional of their own.
  refine (Expr.corresponds_eval hctx.call (condition.moved_refl fun _ => rfl)).bind ?_
  rintro value _ rfl
  split
  · rw [bind_assoc, bind_assoc]
    exact hbody.bind fun _ _ hflow => Action.corresponds_pure hflow
  · exact hothers

theorem runOtherwise_eq (ctx : Context) (otherwise : Option (List Statement)) :
    runOtherwise ctx otherwise = runAll ctx (otherwise.getD []) := by
  cases otherwise <;> rfl

mutual

theorem desugars_run (hctx : Context.Corresponds .desugared ctx ctx') :
    ∀ statement : Statement, Action.Desugars (statement.run ctx) (runAll ctx' statement.desugared)
  | .declaration _ _ type init _ => by
    rw [desugared, runAll_singleton]
    exact corresponds_declaration hctx (optionRel_refl (DeclaredType.moved_refl fun _ => rfl) type)
      (init.moved_refl fun _ => rfl) rfl
  | .assignment _ value _ => by
    rw [desugared, runAll_singleton]
    exact corresponds_assignment hctx (value.moved_refl fun _ => rfl) rfl
  | .function _ => by
    rw [desugared, runAll_singleton]
    exact corresponds_function rfl
  | .returnValue value _ => by
    rw [desugared, runAll_singleton]
    exact corresponds_returnValue hctx (value.moved_refl fun _ => rfl) rfl
  | .expression expr _ => by
    rw [desugared, runAll_singleton]
    exact corresponds_expression hctx (expr.moved_refl fun _ => rfl)
  | .conditional branches otherwise p =>
    desugars_branches hctx p (desugars_otherwise hctx otherwise) branches
  | .whileLoop condition body _ => by
    rw [desugared, runAll_singleton]
    exact corresponds_whileLoop hctx (condition.moved_refl fun _ => rfl) (desugars_runAll hctx body)
  | .forLoop init condition update body p => by
    -- The update ends the body, so a body that returns leaves it out in both forms.
    have hround : Action.Desugars (Flow.andThen (runAll ctx body) (update.run ctx))
        (runAll ctx' (desugaredAll body ++ update.desugared)) := by
      rw [runAll_append]
      exact Flow.corresponds_andThen (desugars_runAll hctx body) (desugars_run hctx update)
    rw [desugared, runAll_append, runAll_singleton]
    refine Flow.corresponds_andThen (desugars_run hctx init) ?_
    change Action.Desugars _ (Flow.repeatWhile ctx'.rounds _ _)
    rw [← hctx.rounds]
    exact Flow.corresponds_repeatWhile
      (Expr.corresponds_eval hctx.call (condition.moved_refl fun _ => rfl)) hround _

theorem desugars_runAll (hctx : Context.Corresponds .desugared ctx ctx') :
    ∀ statements : List Statement,
      Action.Desugars (runAll ctx statements) (runAll ctx' (desugaredAll statements))
  | [] => Action.corresponds_pure .normal
  | statement :: statements => by
    rw [desugaredAll, runAll_append]
    exact Flow.corresponds_andThen (desugars_run hctx statement) (desugars_runAll hctx statements)

/-- The induction is on the branches: the later ones are the other case of the first. -/
theorem desugars_branches (hctx : Context.Corresponds .desugared ctx ctx') (p : Position)
    {otherwise otherwise' : Option (List Statement)}
    (hotherwise : Action.Desugars (runOtherwise ctx otherwise) (runOtherwise ctx' otherwise')) :
    ∀ branches : List Branch, Action.Desugars ((conditional branches otherwise p).run ctx)
      (runAll ctx' (desugaredBranches p otherwise' branches))
  | [] => by
    rw [runOtherwise_eq ctx'] at hotherwise
    exact hotherwise
  | [⟨_, body⟩] => desugars_conditional hctx (desugars_runAll hctx body) hotherwise
  | ⟨_, body⟩ :: next :: branches =>
    desugars_conditional hctx (desugars_runAll hctx body)
      (show Action.Desugars _ (runOtherwise ctx' (some _)) from
        desugars_branches hctx p hotherwise (next :: branches))

theorem desugars_otherwise (hctx : Context.Corresponds .desugared ctx ctx') :
    ∀ otherwise : Option (List Statement),
      Action.Desugars (runOtherwise ctx otherwise)
        (runOtherwise ctx' (desugaredOtherwise otherwise))
  | none => Action.corresponds_pure .normal
  | some body => desugars_runAll hctx body

end

end Statement

theorem Context.desugared_outermost (config : Config) (rounds : Nat) :
    Context.Corresponds .desugared (.outermost config rounds) (.outermost config rounds) := by
  refine ⟨rfl, rfl, corresponds_invoke ?_ config rounds config.maxCallDepth⟩
  rintro ⟨name, params, returnType, body, p⟩ _ rfl ctx ctx' hctx
  exact Statement.desugars_runAll hctx body

/-! ## Programs -/

namespace Program

variable {σ : Type} [Console σ]

/-- With the same number of rounds the program with the statements replaced comes to the same. -/
theorem ending_desugared (program : Program) (config : Config) (rounds : Nat) (console : σ) :
    (program.desugared.ending (.outermost config rounds) console).1.1 =
        (program.ending (.outermost config rounds) console).1.1 ∧
      (program.desugared.ending (.outermost config rounds) console).2 =
        (program.ending (.outermost config rounds) console).2 := by
  have hctx := Context.desugared_outermost config rounds
  have hrun : Action.Corresponds .desugared Eq (program.run (.outermost config rounds))
      (program.desugared.run (.outermost config rounds)) :=
    corresponds_run hctx (Statement.desugars_runAll hctx program.body)
  obtain ⟨⟨hresult, _⟩, hconsole⟩ :=
    (hrun .initial .initial State.corresponds_initial).conduct console
  exact ⟨(hresult.eq fun h => h.eq).symm, hconsole.symm⟩

/-- With enough rounds the program comes to the result and leaves the console as `after`. -/
def EndsWith (program : Program) (config : Config) (console : σ)
    (result : Except Error Environment) (after : σ) : Prop :=
  ∃ rounds, (program.ending (.outermost config rounds) console).1.1 = result.mapError .error ∧
    (program.ending (.outermost config rounds) console).2 = after

/--
The program with the statements replaced has neither loops with three parts nor conditionals with
many branches, and comes to an end exactly where the program does, with the same result.
-/
theorem isCore_desugared_and_endsWith_iff (program : Program) :
    program.desugared.IsCore ∧ ∀ (config : Config) (console : σ) (result : Except Error Environment)
      (after : σ), program.desugared.EndsWith config console result after ↔
        program.EndsWith config console result after := by
  refine ⟨Statement.allCore_desugaredAll program.body, fun config console result after => ?_⟩
  unfold EndsWith
  refine exists_congr fun rounds => ?_
  obtain ⟨hresult, hconsole⟩ := program.ending_desugared config rounds console
  rw [hresult, hconsole]

end Program

end Arrow
