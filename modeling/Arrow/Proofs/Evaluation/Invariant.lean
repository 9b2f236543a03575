import Arrow.Evaluation.Program
import Arrow.Proofs.Action.Keeps
import Arrow.Proofs.Evaluation.Compositional

/-!
# Invariants of evaluation

A reflexive and transitive relation between states is kept by every expression if calls keep it
(`Expr.keeps_eval`), and by every statement if it also holds across single declarations
(`Statement.keeps_run`). A call keeps what its body keeps in a frame of its own
(`Calling.keeps_invoke`), and a program what its statements and its entry point keep
(`Program.keeps_run`).
-/

namespace Arrow

variable {R : State → State → Prop} [IsPreorder State R]

theorem Action.compositional_keeps : Action.Compositional fun _ action => action.Keeps R where
  pure := Action.keeps_pure
  fail := Action.keeps_fail
  environment := Action.keeps_environment
  functions := Action.keeps_functions
  depth := Action.keeps_depth
  write := Action.keeps_write
  readLine := Action.keeps_readLine
  bind := Action.Keeps.bind

/-! ## Expressions -/

/-- Every call keeps `R`. -/
def Calling.Keeps (R : State → State → Prop) (call : Calling) : Prop :=
  ∀ name args p, (call name args p).Keeps R

theorem Expr.keeps_eval {call : Calling} (hcall : call.Keeps R) (expr : Expr) :
    (expr.eval call).Keeps R :=
  (Action.compositional_keeps.evalRules hcall).eval expr expr.all_true

/-! ## Statements -/

/-- A relation that holds across the declaration of a name and across that of a function. -/
structure AllowsDeclarations (R : State → State → Prop) : Prop where
  declare : ∀ {state : State} {name value kind p environment},
    state.environment.declare name value kind p = .ok environment →
      R state { state with environment := environment }
  define : ∀ {state : State} {definition functions},
    state.functions.declare definition = .ok functions →
      R state { state with functions := functions }

theorem keeps_declare {name : String} {value : Value} {kind : Mutability} {p : Position}
    (hR : ∀ (state : State) environment,
      state.environment.declare name value kind p = .ok environment →
      R state { state with environment := environment }) :
    Action.Keeps R (do
      let environment ← Action.check ((← Action.environment).declare name value kind p)
      Action.rebind environment
      pure Flow.normal) := by
  intro state
  rw [Action.perform_environment_bind]
  cases h : state.environment.declare name value kind p with
  | error cause => exact refl_of R state
  | ok environment => exact hR state environment h

theorem keeps_define (hR : AllowsDeclarations R) (definition : Function) :
    Action.Keeps R (do
      let functions ← Action.check ((← Action.functions).declare definition)
      Action.redefine functions
      pure Flow.normal) := by
  intro state
  rw [Action.perform_functions_bind]
  cases h : state.functions.declare definition with
  | error cause => exact refl_of R state
  | ok functions => exact hR.define h

theorem Flow.keeps_andThen {first second : Action Flow} (hfirst : first.Keeps R)
    (hsecond : second.Keeps R) : (andThen first second).Keeps R := by
  refine hfirst.bind fun flow => ?_
  cases flow with
  | normal => exact hsecond
  | returned value p => exact Action.keeps_pure _

theorem Flow.keeps_repeatWhile {condition : Action Value} {body : Action Flow}
    (hcondition : condition.Keeps R) (hbody : body.Keeps R) (rounds : Nat) :
    (repeatWhile rounds condition body).Keeps R := by
  refine Action.Keeps.loop (hcondition.bind fun value => ?_) rounds
  split
  · refine hbody.bind fun flow => ?_
    cases flow with
    | normal => exact Action.keeps_pure _
    | returned value p => exact Action.keeps_pure _
  · exact Action.keeps_pure _

variable {ctx : Context}

theorem Action.runRules_keeps (hR : AllowsDeclarations R) (hcall : ctx.call.Keeps R) :
    Action.RunRules (fun _ action => action.Keeps R) ctx (fun _ => True) fun _ => True :=
  Action.compositional_keeps.runRules hcall
    (fun _ _ _ _ => keeps_declare fun _ _ => hR.declare)
    (fun definition _ => keeps_define hR definition)
    fun _ _ _ hround => hround.loop _

theorem Statement.keeps_run (hR : AllowsDeclarations R) (hcall : ctx.call.Keeps R)
    (statement : Statement) : (statement.run ctx).Keeps R :=
  (Action.runRules_keeps hR hcall).run statement
    (statement.all_of_forall (fun _ => trivial) fun _ => trivial)

theorem Statement.keeps_runAll (hR : AllowsDeclarations R) (hcall : ctx.call.Keeps R)
    (statements : List Statement) : (Statement.runAll ctx statements).Keeps R :=
  (Action.runRules_keeps hR hcall).runAll statements
    (Statement.allIn_of_forall (fun _ => trivial) (fun _ => trivial) statements)

/-! ## Calls -/

/--
Calls keep `R` if it follows, for the rest of the state, from a relation `Q` that bodies keep. The
induction is on the calls that may be nested: those in a body keep `R` and therefore `Q`.
-/
theorem Calling.keeps_invoke {Q : State → State → Prop} [IsPreorder State Q]
    (hQ : AllowsDeclarations Q) (hRQ : ∀ state after, R state after → Q state after)
    (hQR : ∀ (frame : Environment) (state after : State),
      Q { state with environment := frame, depth := state.depth + 1 } after →
      R state { after with environment := state.environment, depth := after.depth - 1 })
    (config : Config) (rounds calls : Nat) : Calling.Keeps R (invoke config rounds calls) := by
  induction calls with
  | zero => exact Action.compositional_keeps.dispatch fun _ _ _ => Action.keeps_fail _
  | succ calls ih =>
    refine Action.compositional_keeps.dispatch fun f frame p => ?_
    have body : (Statement.runAll ⟨config, rounds, invoke config rounds calls⟩ f.body).Keeps Q :=
      Statement.keeps_runAll hQ (fun name args p => (ih name args p).mono hRQ) f.body
    exact (body.within frame (hQR frame)).bind fun _ =>
      (Action.keeps_check _).bind fun _ => Action.keeps_pure _

/-! ## Programs -/

theorem Program.keeps_runEntryPoint (hcall : ctx.call.Keeps R) : (runEntryPoint ctx).Keeps R :=
  Action.compositional_keeps.runEntryPoint hcall

theorem Program.keeps_run (hR : AllowsDeclarations R) (hcall : ctx.call.Keeps R)
    (program : Program) : (program.run ctx).Keeps R :=
  Action.compositional_keeps.run hcall (Action.runRules_keeps hR hcall)
    (Statement.allIn_of_forall (fun _ => trivial) (fun _ => trivial) program.body)

end Arrow
