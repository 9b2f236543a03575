import Arrow.Proofs.Evaluation.Bindings
import Arrow.Proofs.Evaluation.Moments
import Mathlib

/-!
# Simple statements that fail

A simple statement, one without statements in it, writes a binding only as its last step, which
cannot fail. So if it fails it leaves the bindings as they were (`Statement.atomic_run`). An
assignment checks its target before its value is evaluated, and since the evaluation leaves all
bindings alone, the check holds good when the value is written
(`Statement.perform_assignment_of_writable`).
-/

namespace Arrow

/-! ## Actions that leave the bindings alone if they fail -/

namespace Action

variable {α β : Type}

/-- If the action fails, it has left the bindings and the number of active calls alone. -/
def Atomic (action : Action α) : Prop :=
  ∀ state, (action.perform state).Ends fun (result, after) =>
    ∀ halt, result = .error halt → SameBindings state after

theorem Keeps.atomic {action : Action α} (h : action.Keeps SameBindings) : action.Atomic :=
  fun state => (h state).mono fun _ hafter _ _ => hafter

/-- What leaves the bindings alone may come before. -/
theorem Atomic.after {action : Action α} {next : α → Action β}
    (hnext : ∀ value, (next value).Atomic) (h : action.Keeps SameBindings) :
    (action >>= next).Atomic := by
  intro state
  rw [perform_bind]
  apply (h state).bind
  rintro ⟨halt | value, after⟩ hafter
  · exact fun _ _ => hafter
  · exact (hnext value after).mono fun _ hlast halt hhalt => trans_of SameBindings hafter
      (hlast halt hhalt)

/-- The last step of a declaration and of an assignment does not fail. -/
theorem atomic_rebind (env : Environment) (value : α) :
    (rebind env >>= fun _ => pure value).Atomic :=
  fun _ _ => nofun

theorem atomic_declare (name : String) (value : Value) (kind : Mutability) (p : Position) :
    Atomic (do
      let environment ← check ((← environment).declare name value kind p)
      rebind environment
      pure Flow.normal) :=
  .after (fun _ => .after (fun env => atomic_rebind env Flow.normal) (keeps_check _))
    keeps_environment

end Action

/-! ## Simple statements -/

namespace Statement

/-- A statement that has no statements in it that it runs. -/
def IsSimple : Statement → Prop
  | declaration .. => True
  | assignment .. => True
  | function _ => True
  | returnValue .. => True
  | expression .. => True
  | conditional .. => False
  | whileLoop .. => False
  | forLoop .. => False

variable {ctx : Context}

theorem atomic_run (hcall : ctx.call.Keeps SameBindings) {statement : Statement}
    (h : statement.IsSimple) : (statement.run ctx).Atomic := by
  have eval (expr : Expr) : (expr.eval ctx.call).Keeps SameBindings := expr.keeps_eval hcall
  cases statement with
  | declaration kind name type init p =>
    exact .after (fun value => .after (fun _ => Action.atomic_declare name value kind p)
      (Action.keeps_check _)) (eval init)
  | assignment name expr p =>
    exact .after (fun _ => .after (fun _ => .after (fun value =>
      Action.atomic_declare name value .var p) (eval expr)) (Action.keeps_check _))
      Action.keeps_environment
  | function definition =>
    have define (table : FunctionTable) : (Action.redefine table).Keeps SameBindings :=
      fun _ => ⟨rfl, rfl⟩
    exact (Action.keeps_functions.bind fun _ => (Action.keeps_check _).bind fun table =>
      (define table).bind fun _ => Action.keeps_pure _).atomic
  | returnValue expr p => exact ((eval expr).bind fun _ => Action.keeps_pure _).atomic
  | expression expr p => exact ((eval expr).bind fun _ => Action.keeps_pure _).atomic
  | conditional _ _ _ | whileLoop _ _ _ | forLoop _ _ _ _ _ => exact h.elim

end Statement

/-! ## Targets of assignments -/

namespace Environment

variable {env : Environment} {name : String} {mode : AssignmentMode} {p : Position}

theorem checkTarget_of_const {value : Value} (h : env.get? name = some ⟨value, .const⟩) :
    env.checkTarget mode name p = .error (.constReassignment name p) := by
  simp [checkTarget, ensureWritable, h]

theorem checkTarget_of_unbound (h : env.get? name = none) :
    env.checkTarget .reject name p = .error (.undefinedVariable name p) := by
  simp [checkTarget, h]

theorem ensureWritable_of_ne_const (h : ∀ value, env.get? name ≠ some ⟨value, .const⟩) :
    env.ensureWritable name p = .ok () := by
  unfold ensureWritable
  split
  case h_1 value hconst => exact absurd hconst (h value)
  case h_2 => rfl

theorem checkTarget_of_writable (hconst : ∀ value, env.get? name ≠ some ⟨value, .const⟩)
    (hbound : env.get? name = none → mode = .declare) : env.checkTarget mode name p = .ok () := by
  unfold checkTarget
  rw [if_neg, ensureWritable_of_ne_const hconst]
  rintro ⟨hmode, hnone⟩
  rw [hbound (Option.isNone_iff_eq_none.1 hnone)] at hmode
  exact nomatch hmode

theorem assign_of_ne_const (hconst : ∀ value, env.get? name ≠ some ⟨value, .const⟩)
    (value : Value) : env.assign name value p = .ok (env.overlay name value .var) := by
  unfold assign declare
  rw [ensureWritable_of_ne_const hconst]
  rfl

end Environment

namespace Statement

variable {ctx : Context} {state : State} {name : String} {expr : Expr} {p : Position}

theorem perform_assignment_of_error {cause : RuntimeError}
    (h : state.environment.checkTarget ctx.config.assignment name p = .error cause) :
    ((assignment name expr p).run ctx).perform state =
      .done (.error (.error (.runtime cause)), state) := by
  unfold run
  rw [Action.perform_environment_bind, h]
  rfl

/-- An assignment to a name that may be written ends as the evaluation of its value does. -/
theorem perform_assignment_of_writable (hcall : ctx.call.Keeps SameBindings)
    (hconst : ∀ value, state.environment.get? name ≠ some ⟨value, .const⟩)
    (hbound : state.environment.get? name = none → ctx.config.assignment = .declare) :
    ((assignment name expr p).run ctx).perform state =
      (expr.eval ctx.call).perform state >>= fun
        | (.ok value, after) => .done (.ok .normal,
          { after with environment := state.environment.overlay name value .var })
        | (.error halt, after) => .done (.error halt, after) := by
  rw [perform_assignment (Environment.checkTarget_of_writable hconst hbound), Action.perform_bind]
  apply (expr.keeps_eval hcall state).bind_congr
  rintro ⟨halt | value, after⟩ hafter
  · rfl
  · -- The bindings are those that the target has been checked against.
    dsimp only
    rw [Action.perform_environment_bind, hafter.1, Environment.assign_of_ne_const hconst]
    rfl

end Statement

/--
A declaration, an assignment, the declaration of a function, a return or an expression that fails
leaves the bindings and the number of active calls as they were. An assignment to a constant fails
before anything else is done, and so does one to a name without a binding if that is rejected. Any
other assignment ends as the evaluation of its value does, and binds the name if that has a value.
-/
theorem failed_simple_statement_atomic (config : Config) (rounds calls : Nat) (state : State)
    {σ : Type} [Console σ] (console : σ) :
    let ctx : Context := ⟨config, rounds, invoke config rounds calls⟩
    (∀ statement : Statement, statement.IsSimple → ∀ halt after left,
      ((statement.run ctx).perform state).conduct console = ((.error halt, after), left) →
        after.environment = state.environment ∧ after.depth = state.depth) ∧
    ∀ name expr p,
      let assigned := ((Statement.assignment name expr p).run ctx).perform state
      (∀ value, state.environment.get? name = some ⟨value, .const⟩ →
        assigned = .done (.error (.error (.runtime (.constReassignment name p))), state)) ∧
      (state.environment.get? name = none → config.assignment = .reject →
        assigned = .done (.error (.error (.runtime (.undefinedVariable name p))), state)) ∧
      ((∀ value, state.environment.get? name ≠ some ⟨value, .const⟩) →
        (state.environment.get? name = none → config.assignment = .declare) →
        assigned = (expr.eval ctx.call).perform state >>= fun
          | (.ok value, after) => .done (.ok .normal,
            { after with environment := state.environment.overlay name value .var })
          | (.error halt, after) => .done (.error halt, after)) := by
  intro ctx
  have hcall : ctx.call.Keeps SameBindings := invoke_sameBindings config rounds calls
  refine ⟨fun statement hsimple halt after left hrun => ?_, fun name expr p => ⟨?_, ?_, ?_⟩⟩
  · have hkept := (Statement.atomic_run hcall hsimple state).conduct console
    rw [hrun] at hkept
    exact hkept halt rfl
  · intro value hconst
    exact Statement.perform_assignment_of_error (Environment.checkTarget_of_const hconst)
  · intro hunbound hmode
    refine Statement.perform_assignment_of_error ?_
    rw [show ctx.config.assignment = .reject from hmode]
    exact Environment.checkTarget_of_unbound hunbound
  · exact fun hconst hbound => Statement.perform_assignment_of_writable hcall hconst hbound

/--
A return that calls a function, which declares another one and fails, and assignments of the value
of a call in which a constant is declared that has the name of the target.
-/
theorem failed_simple_statement_atomic_when_strict :
    let text (content : String) : Expr := .literal (.text content) .start
    let inner : Function := ⟨"h", [], none, [], .start⟩
    let f : Function := ⟨"f", [], none, [.declaration .const "x" none (text "b") .start,
      .returnValue (text "c") .start], .start⟩
    let g : Function := ⟨"g", [], none, [.function inner, .expression (.var "y" .start) .start],
      .start⟩
    let env := (Environment.empty.overlay "k" (.text "a") .const).overlay "x" (.text "a") .var
    let state : State := ⟨env, ⟨[f, g]⟩, 0⟩
    let after : State := ⟨env, ⟨[inner, f, g]⟩, 0⟩
    let console : Transcript := ⟨[], ""⟩
    let ctx : Context := ⟨.strict, 0, invoke .strict 0 1⟩
    let returning : Statement := .returnValue (.call "g" [] .start) .start
    let halt (cause : RuntimeError) : Halt := .error (.runtime cause)
    let assigned (name : String) :=
      ((Statement.assignment name (.call "f" [] .start) .start).run ctx).perform state
    (((returning.run ctx).perform state).conduct console =
        ((.error (halt (.undefinedVariable "y" .start)), after), console) ∧
      after.environment = state.environment ∧ after.depth = state.depth) ∧
    assigned "k" = .done (.error (halt (.constReassignment "k" .start)), state) ∧
    assigned "y" = .done (.error (halt (.undefinedVariable "y" .start)), state) ∧
    assigned "x" = .done (.ok .normal,
      { state with environment := env.overlay "x" (.text "c") .var }) := by
  intro text inner f g env state after console ctx returning halt assigned
  obtain ⟨hatomic, hassigned⟩ := failed_simple_statement_atomic .strict 0 1 state console
  have hfailed : ((returning.run ctx).perform state).conduct console =
      ((.error (halt (.undefinedVariable "y" .start)), after), console) := by cbv
  have hvalue : ((Expr.call "f" [] .start).eval ctx.call).perform state =
      .done (.ok (.text "c"), state) := by cbv
  have hbound : state.environment.get? "x" = some ⟨.text "a", .var⟩ := rfl
  obtain ⟨hk, -, -⟩ := hassigned "k" (.call "f" [] .start) .start
  obtain ⟨-, hy, -⟩ := hassigned "y" (.call "f" [] .start) .start
  obtain ⟨-, -, hx⟩ := hassigned "x" (.call "f" [] .start) .start
  refine ⟨⟨hfailed, hatomic returning trivial _ _ _ hfailed⟩, hk (.text "a") rfl, hy rfl rfl, ?_⟩
  show Action.perform _ state = _
  rw [hx (by simp [hbound]) (by simp [hbound]), hvalue]
  rfl

end Arrow
