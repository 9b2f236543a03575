import Arrow.Evaluation.Program
import Arrow.Proofs.Action.Yields
import Arrow.Proofs.Value.Closed

/-!
# Values that programs compute

Let `V` be closed under what programs do to values. From a state in which all bound values have `V`
every part of a program comes to such a state again, and the values that it gives have `V`: an
expression its value, a statement the value that it returns, and a call its result if its arguments
have `V`.
-/

namespace Arrow

variable {V : Value → Prop}

/-- All values in the environment in force have `V`. -/
def State.AllBound (V : Value → Prop) (state : State) : Prop :=
  state.environment.All V

/-- The values in a flow: the one that is returned. -/
def Flow.values : Flow → List Value
  | normal => []
  | returned value _ => [value]

/-- Calls with arguments that have `V` give values with `V`. -/
def Calling.Yields (V : Value → Prop) (call : Calling) : Prop :=
  ∀ name args p, (∀ arg ∈ args, V arg) → (call name args p).Yields (State.AllBound V) V

/-! ## Expressions -/

namespace Expr

variable {call : Calling}

theorem yields_var (name : String) (p : Position) :
    ((var name p).eval call).Yields (State.AllBound V) V := by
  unfold eval
  refine (Action.yields_environment fun _ hstate => hstate).bind fun env henv => ?_
  cases hbound : env.get? name with
  | none => exact Action.yields_fail _
  | some binding => exact Action.yields_pure (henv name binding hbound)

mutual

theorem yields_eval (hV : Value.Closed V) (hcall : call.Yields V) :
    ∀ expr : Expr, (expr.eval call).Yields (State.AllBound V) V
  | literal value _ => Action.yields_pure (hV.simple (Value.isSimple_ofLiteral value))
  | var name p => yields_var name p
  | not operand _ =>
    (yields_eval hV hcall operand).bind fun _ _ => Action.yields_pure (hV.simple trivial)
  | binary left _ right _ =>
    (yields_eval hV hcall left).bind fun _ _ => (yields_eval hV hcall right).bind fun _ _ =>
      Action.yields_check fun _ h => hV.simple (Value.isSimple_of_binary h)
  | .call callee arguments p =>
    (yields_evalAll hV hcall arguments).bind fun args hargs => hcall callee args p hargs
  | array elements _ =>
    (yields_evalAll hV hcall elements).bind fun _ hvalues =>
      Action.yields_pure (hV.array.2 hvalues)
  | object fields _ =>
    (yields_evalFields hV hcall fields).bind fun _ hvalues =>
      Action.yields_pure (hV.ofFields hvalues)
  | index target selector _ =>
    (yields_eval hV hcall target).bind fun _ ha => (yields_eval hV hcall selector).bind fun _ _ =>
      Action.yields_check fun _ h => hV.index ha h
  | member target _ _ =>
    (yields_eval hV hcall target).bind fun _ ha =>
      Action.yields_check fun _ h => hV.member ha h

theorem yields_evalAll (hV : Value.Closed V) (hcall : call.Yields V) :
    ∀ exprs : List Expr,
      (evalAll call exprs).Yields (State.AllBound V) fun values => ∀ value ∈ values, V value
  | [] => Action.yields_pure nofun
  | expr :: exprs =>
    (yields_eval hV hcall expr).bind fun _ hvalue =>
      (yields_evalAll hV hcall exprs).bind fun _ hvalues =>
        Action.yields_pure (List.forall_mem_cons.2 ⟨hvalue, hvalues⟩)

theorem yields_evalFields (hV : Value.Closed V) (hcall : call.Yields V) :
    ∀ fields : List (String × Expr),
      (evalFields call fields).Yields (State.AllBound V) fun values => ∀ field ∈ values, V field.2
  | [] => Action.yields_pure nofun
  | (_, expr) :: fields =>
    (yields_eval hV hcall expr).bind fun _ hvalue =>
      (yields_evalFields hV hcall fields).bind fun _ hvalues =>
        Action.yields_pure (List.forall_mem_cons.2 ⟨hvalue, hvalues⟩)

end

end Expr

/-! ## Statements -/

namespace Flow

/-- The value that is returned, if one is, has `V`. -/
def All (V : Value → Prop) (flow : Flow) : Prop :=
  ∀ value ∈ flow.values, V value

theorem all_normal : normal.All V :=
  List.forall_mem_nil _

theorem all_returned {value : Value} (h : V value) (p : Position) : (returned value p).All V :=
  List.forall_mem_singleton.2 h

theorem yields_andThen {first second : Action Flow}
    (hfirst : first.Yields (State.AllBound V) (All V))
    (hsecond : second.Yields (State.AllBound V) (All V)) :
    (andThen first second).Yields (State.AllBound V) (All V) := by
  refine hfirst.bind fun flow hflow => ?_
  cases flow with
  | normal => exact hsecond
  | returned value p => exact Action.yields_pure hflow

theorem yields_repeatWhile (rounds : Nat) {condition : Action Value} {body : Action Flow}
    (hcondition : condition.Yields (State.AllBound V) V)
    (hbody : body.Yields (State.AllBound V) (All V)) :
    (repeatWhile rounds condition body).Yields (State.AllBound V) (All V) := by
  refine Action.Yields.loop (hcondition.bind fun value _ => ?_) rounds
  split
  · refine hbody.bind fun flow hflow => ?_
    cases flow with
    | normal => exact Action.yields_pure nofun
    | returned value p => exact Action.yields_pure fun _ heq => Option.some.inj heq ▸ hflow
  · exact Action.yields_pure fun _ heq => Option.some.inj heq ▸ all_normal

end Flow

namespace Statement

variable {ctx : Context}

theorem yields_bind {name : String} {value : Value} (hvalue : V value) (kind : Mutability)
    (p : Position) :
    Action.Yields (State.AllBound V) (Flow.All V) (do
      let environment ← Action.check ((← Action.environment).declare name value kind p)
      Action.rebind environment
      pure Flow.normal) :=
  (Action.yields_environment fun _ hstate => hstate).bind fun _ henv =>
    (Action.yields_check fun _ hafter => henv.declare hvalue hafter).bind fun _ hafter =>
      (Action.yields_rebind fun _ _ => hafter).bind fun _ _ => Action.yields_pure Flow.all_normal

theorem yields_define (definition : Function) :
    ((function definition).run ctx).Yields (State.AllBound V) (Flow.All V) :=
  Action.yields_functions.bind fun _ _ =>
    (Action.yields_check fun _ _ => trivial).bind fun _ _ =>
      (Action.yields_redefine fun _ hstate => hstate).bind fun _ _ =>
        Action.yields_pure Flow.all_normal

mutual

theorem yields_run (hV : Value.Closed V) (hcall : ctx.call.Yields V) :
    ∀ statement : Statement, (statement.run ctx).Yields (State.AllBound V) (Flow.All V)
  | declaration kind _ _ init p =>
    (init.yields_eval hV hcall).bind fun _ hvalue =>
      (Action.yields_check fun _ _ => trivial).bind fun _ _ => yields_bind hvalue kind p
  | assignment name expr p =>
    (Action.yields_environment fun _ hstate => hstate).bind fun _ _ =>
      (Action.yields_check fun _ _ => trivial).bind fun _ _ =>
        (expr.yields_eval hV hcall).bind fun _ hvalue => yields_bind hvalue .var p
  | function definition => yields_define definition
  | returnValue expr p =>
    (expr.yields_eval hV hcall).bind fun _ hvalue =>
      Action.yields_pure (Flow.all_returned hvalue p)
  | expression expr _ =>
    (expr.yields_eval hV hcall).bind fun _ _ => Action.yields_pure Flow.all_normal
  | conditional branches otherwise _ => by
    refine (yields_runBranches hV hcall branches).bind fun result hresult => ?_
    cases result with
    | none => exact yields_runOtherwise hV hcall otherwise
    | some flow => exact Action.yields_pure (hresult flow rfl)
  | whileLoop condition body _ =>
    Flow.yields_repeatWhile ctx.rounds (condition.yields_eval hV hcall)
      (yields_runAll hV hcall body)
  | forLoop init condition update body _ =>
    Flow.yields_andThen (yields_run hV hcall init)
      (Flow.yields_repeatWhile ctx.rounds (condition.yields_eval hV hcall)
        (Flow.yields_andThen (yields_runAll hV hcall body) (yields_run hV hcall update)))

theorem yields_runAll (hV : Value.Closed V) (hcall : ctx.call.Yields V) :
    ∀ statements : List Statement,
      (runAll ctx statements).Yields (State.AllBound V) (Flow.All V)
  | [] => Action.yields_pure Flow.all_normal
  | statement :: statements =>
    Flow.yields_andThen (yields_run hV hcall statement) (yields_runAll hV hcall statements)

theorem yields_runBranches (hV : Value.Closed V) (hcall : ctx.call.Yields V) :
    ∀ branches : List Branch,
      (runBranches ctx branches).Yields (State.AllBound V) fun result =>
        ∀ flow ∈ result, flow.All V
  | [] => Action.yields_pure nofun
  | ⟨condition, body⟩ :: branches => by
    refine (condition.yields_eval hV hcall).bind fun value _ => ?_
    split
    · refine (yields_runAll hV hcall body).bind fun flow hflow => Action.yields_pure ?_
      exact fun _ heq => Option.some.inj heq ▸ hflow
    · exact yields_runBranches hV hcall branches

theorem yields_runOtherwise (hV : Value.Closed V) (hcall : ctx.call.Yields V) :
    ∀ otherwise : Option (List Statement),
      (runOtherwise ctx otherwise).Yields (State.AllBound V) (Flow.All V)
  | none => Action.yields_pure Flow.all_normal
  | some body => yields_runAll hV hcall body

end

end Statement

/-! ## Calls -/

theorem Flow.All.value {flow : Flow} (hV : Value.Closed V) (h : flow.All V) : V flow.value := by
  cases flow with
  | normal => exact hV.simple trivial
  | returned value p => exact h value List.mem_cons_self

theorem Function.yields_run {ctx : Context} (hV : Value.Closed V) (hcall : ctx.call.Yields V)
    {frame : Environment} (hframe : frame.All V) (p : Position) (f : Function) :
    (f.run ctx frame p).Yields (State.AllBound V) V := by
  have body : (Action.within frame (Statement.runAll ctx f.body)).Yields (State.AllBound V)
      (Flow.All V) :=
    (Statement.yields_runAll hV hcall f.body).within frame (fun _ _ => hframe)
      fun _ _ hstate _ => hstate
  exact body.bind fun _ hflow => (Action.yields_check fun _ _ => trivial).bind fun _ _ =>
    Action.yields_pure (hflow.value hV)

theorem Builtin.yields_readValue (hV : Value.Closed V) (p : Position) :
    (readValue p).Yields (State.AllBound V) V := by
  refine (Action.yields_readLine p).bind fun line _ => ?_
  cases line <;> exact Action.yields_pure (hV.simple trivial)

theorem Builtin.yields_call (hV : Value.Closed V) (builtin : Builtin) (args : List Value)
    (p : Position) : (builtin.call args p).Yields (State.AllBound V) V := by
  have null {action : Action Unit} (h : action.Yields (State.AllBound V) fun _ => True) :
      (action >>= fun _ => pure Value.null).Yields (State.AllBound V) V :=
    h.bind fun _ _ => Action.yields_pure (hV.simple trivial)
  unfold call
  split
  · exact null (Action.yields_write _ p)
  · exact null (Action.yields_write _ p)
  · exact yields_readValue hV p
  · exact (Action.yields_write _ p).bind fun _ _ => yields_readValue hV p
  · exact Action.yields_check fun _ h => hV.simple (Value.isSimple_of_len h)
  · exact Action.yields_pure (hV.simple trivial)
  · exact Action.yields_fail _

theorem Calling.yields_dispatch (hV : Value.Closed V) {config : Config}
    {body : Function → Environment → Position → Action Value}
    (hbody : ∀ f frame p, frame.All V → (body f frame p).Yields (State.AllBound V) V) :
    (dispatch config body).Yields V := by
  intro name args p hargs
  unfold dispatch
  split
  · exact Builtin.yields_call hV _ args p
  · refine Action.yields_functions.bind fun functions _ => ?_
    split
    · exact Action.yields_fail _
    · refine (Action.yields_environment fun _ hstate => hstate).bind fun _ henv => ?_
      refine (Action.yields_check fun _ hframe => Function.all_frame henv hargs hframe).bind
        fun frame hframe => ?_
      refine Action.yields_depth.bind fun _ _ => ?_
      split
      · exact Action.yields_fail _
      · exact hbody _ frame p hframe

/-- By induction on the calls that may be nested: those in a body are one less. -/
theorem Calling.yields_invoke (hV : Value.Closed V) (config : Config) (rounds calls : Nat) :
    Calling.Yields V (invoke config rounds calls) := by
  induction calls with
  | zero => exact yields_dispatch hV fun _ _ _ _ => Action.yields_fail _
  | succ calls ih => exact yields_dispatch hV fun f _ p hframe => f.yields_run hV ih hframe p

/-! ## Programs -/

namespace Program

variable {ctx : Context}

theorem yields_runBody (hV : Value.Closed V) (hcall : ctx.call.Yields V) :
    ∀ statements : List Statement,
      (runBody ctx statements).Yields (State.AllBound V) fun _ => True
  | [] => Action.yields_pure trivial
  | statement :: statements => by
    refine (statement.yields_run hV hcall).bind fun flow _ => ?_
    cases flow with
    | normal => exact yields_runBody hV hcall statements
    | returned value p => exact Action.yields_fail _

theorem yields_runEntryPoint (hcall : ctx.call.Yields V) :
    (runEntryPoint ctx).Yields (State.AllBound V) fun _ => True := by
  refine Action.yields_functions.bind fun functions _ => ?_
  split
  · split
    · exact (hcall _ _ _ (List.forall_mem_nil _)).bind fun _ _ => Action.yields_pure trivial
    · exact Action.yields_fail _
  · split
    · exact Action.yields_fail _
    · exact Action.yields_pure trivial

theorem yields_run (hV : Value.Closed V) (hcall : ctx.call.Yields V) (program : Program) :
    (program.run ctx).Yields (State.AllBound V) (Environment.All V) :=
  (yields_runBody hV hcall program.body).bind fun _ _ =>
    (yields_runEntryPoint hcall).bind fun _ _ => Action.yields_environment fun _ hstate => hstate

end Program

end Arrow
