import Arrow.Proofs.Dialogue.Reaches
import Arrow.Proofs.Evaluation.Bindings
import Arrow.Proofs.Evaluation.Occurrences

/-!
# How a part goes on

When a moment leads to a part inside, within the same call, the part goes on with what is `next`
after that. Whatever statements keep is kept up to the part inside and from its end on, and if the
part inside has ended because a statement has returned, so does the part, at once
(`Moment.Leads.resumes`). When the body of a function has ended, the call goes back to the bindings
of the caller and checks the value (`Function.conclude`).
-/

namespace Arrow

variable {R : State → State → Prop} [IsPreorder State R]

namespace Action

variable {α β : Type}

/-- What is still to be done when the first part of a sequence has ended. -/
def resume (next : α → Action β) : Except Halt α × State → Dialogue (Except Halt β × State)
  | (.ok value, after) => (next value).perform after
  | (.error halt, after) => .done (.error halt, after)

theorem perform_bind_resume (action : Action α) (next : α → Action β) (state : State) :
    (action >>= next).perform state = action.perform state >>= resume next :=
  perform_bind action next state

theorem resume_pure : resume (pure : α → Action α) = .done := by
  funext ⟨result, state⟩
  cases result <;> rfl

theorem resume_bind {γ : Type} (first : α → Action β) (second : β → Action γ)
    (ending : Except Halt α × State) :
    resume (fun value => first value >>= second) ending =
      resume first ending >>= resume second := by
  obtain ⟨_ | value, state⟩ := ending
  · rfl
  · exact perform_bind_resume _ _ _

theorem ends_resume {next : α → Action β} (h : ∀ value, (next value).Keeps R) :
    ∀ ending, (resume next ending).Ends fun (_, after) => R ending.2 after
  | (.ok value, state) => h value state
  | (.error _, state) => refl_of R state

end Action

theorem Expr.keeps_finish {call : Calling} (hcall : call.Keeps R) (expr : Expr)
    (values : List Value) : (expr.finish call values).Keeps R := by
  unfold finish
  split
  case h_2 => exact Expr.keeps_eval hcall _
  case h_5 => exact hcall _ _ _
  all_goals first
    | exact Action.keeps_pure _
    | exact Action.keeps_check _

/--
What is left of a call when the body of the function has ended: the bindings of the caller come
back, and the value is checked.
-/
def Function.conclude (f : Function) (p : Position) (caller : Environment) :
    Except Halt Flow × State → Dialogue (Except Halt Value × State)
  | (result, after) =>
    Action.resume (fun flow => do
      Action.check (checkDeclared f.returnType flow.value s!"Function '{f.name}'" p)
      pure flow.value)
    (result, { after with environment := caller, depth := after.depth - 1 })

theorem Function.ends_conclude (f : Function) (p : Position) (caller : Environment)
    (stop : Except Halt Flow × State) :
    (f.conclude p caller stop).Ends fun (_, after) =>
      { stop.2 with environment := caller, depth := stop.2.depth - 1 } = after := by
  refine Action.ends_resume (R := Eq) (fun flow => ?_) (stop.1, _)
  exact (Action.keeps_check _).bind fun _ => Action.keeps_pure flow.value

theorem perform_invoke_body {config : Config} {rounds calls : Nat} {name : String}
    {args : List Value} {p : Position} {f : Function} {state : State} {frame : Environment}
    (hbuiltin : Builtin.ofName? name = none) (hfind : state.functions.find? name = some f)
    (hframe : f.frame args p state.environment = .ok frame)
    (hdepth : state.depth < config.maxCallDepth) :
    (invoke config rounds (calls + 1) name args p).perform state =
      (Statement.runAll ⟨config, rounds, invoke config rounds calls⟩ f.body).perform
        { state with environment := frame, depth := state.depth + 1 } >>=
        f.conclude p state.environment := by
  show (Calling.dispatch config _ name args p).perform state = _
  rw [Calling.perform_dispatch hbuiltin hfind hframe hdepth]
  unfold Function.run
  rw [Action.perform_bind_resume, Action.perform_within, Dialogue.bind_bind]
  rfl

namespace Part

/-! ## What parts keep -/

theorem keeps_run {ctx : Context} (hR : AllowsDeclarations R) (hcall : ctx.call.Keeps R)
    (part : Part) : (part.run ctx).Keeps R := by
  have hrules := Action.runRules_keeps hR hcall
  cases part with
  | program whole => exact whole.keeps_run hR hcall
  | outermost body =>
    exact hrules.runBody (fun _ => Action.keeps_fail _) body
      (Statement.allIn_of_forall (fun _ => trivial) (fun _ => trivial) body)
  | statements body => exact Statement.keeps_runAll hR hcall body
  | statement single => exact single.keeps_run hR hcall
  | branches cases =>
    exact hrules.runBranches cases
      (Statement.allInBranches_of_forall (fun _ => trivial) (fun _ => trivial) cases)
  | loop rounds condition body =>
    exact Flow.keeps_repeatWhile (condition.keeps_eval hcall)
      (Statement.keeps_runAll hR hcall body) rounds
  | exprs several =>
    exact hrules.evalAll several (Expr.allIn_of_forall (fun _ => trivial) several)
  | expr single => exact single.keeps_eval hcall
  | call name args p => exact hcall name args p

/-! ## Parts that have returned -/

/--
The part has ended because a statement in it has returned: with the value and the position, or with
an error if its statements are outermost ones. No expression ends so.
-/
def Returned (value : Value) (p : Position) : (part : Part) → Except Halt part.Result → Prop
  | program _, ending => ending = .error (.error (.runtime (.returnOutsideFunction p)))
  | outermost _, ending => ending = .error (.error (.runtime (.returnOutsideFunction p)))
  | statements _, ending => ending = .ok (.returned value p)
  | statement _, ending => ending = .ok (.returned value p)
  | branches _, ending => ending = .ok (some (.returned value p))
  | loop _ _ _, ending => ending = .ok (.returned value p)
  | exprs _, _ => False
  | expr _, _ => False
  | call _ _ _, _ => False

/--
What is done in a part after a part inside keeps `R`; and it is nothing if the part inside has
returned.
-/
structure ResumedBy (R : State → State → Prop) {part inner : Part}
    (next : inner.Result → Action part.Result) : Prop where
  keeps : ∀ result, (next result).Keeps R
  returns : ∀ {value p ending}, inner.Returned value p ending →
    ∃ stop, part.Returned value p stop ∧
      ∀ after, Action.resume next (ending, after) = .done (stop, after)

omit [IsPreorder State R] in
/-- After an operand there is no return to go on from. -/
theorem resumedBy_of_operand {part inner : Part} {next : inner.Result → Action part.Result}
    (hinner : ∀ value p ending, ¬ inner.Returned value p ending)
    (hkeeps : ∀ result, (next result).Keeps R) : ResumedBy R next :=
  ⟨hkeeps, fun h => (hinner _ _ _ h).elim⟩

/-- The first part inside, and what comes after it. -/
theorem exists_next {ctx : Context} (hR : AllowsDeclarations R) (hcall : ctx.call.Keeps R) :
    ∀ {part inner : Part}, part.first? ctx.rounds = some inner →
      ∃ next : inner.Result → Action part.Result, ResumedBy R next ∧
        part.run ctx = inner.run ctx >>= next := by
  have keeps (part : Part) : (part.run ctx).Keeps R := part.keeps_run hR hcall
  intro part inner h
  match part, inner, h with
  | program whole, _, rfl =>
    refine ⟨_, ⟨fun _ => ?_, ?_⟩, rfl⟩
    · exact (Program.keeps_runEntryPoint hcall).bind fun _ => Action.keeps_environment
    · rintro value p ending rfl
      exact ⟨_, rfl, fun _ => rfl⟩
  | outermost (first :: rest), _, rfl =>
    refine ⟨_, ⟨fun flow => ?_, ?_⟩, rfl⟩
    · cases flow with
      | normal => exact keeps (.outermost rest)
      | returned value p => exact Action.keeps_fail _
    · rintro value p ending rfl
      exact ⟨_, rfl, fun _ => rfl⟩
  | statements (first :: rest), _, rfl =>
    refine ⟨_, ⟨fun flow => ?_, ?_⟩, rfl⟩
    · cases flow with
      | normal => exact keeps (.statements rest)
      | returned value p => exact Action.keeps_pure _
    · rintro value p ending rfl
      exact ⟨_, rfl, fun _ => rfl⟩
  | statement (.declaration kind name type init p), _, rfl =>
    exact ⟨_, resumedBy_of_operand (fun _ _ _ => id) fun value => (Action.keeps_check _).bind
      fun _ => keeps_declare fun _ _ => hR.declare, rfl⟩
  | statement (.returnValue value p), _, rfl =>
    exact ⟨_, resumedBy_of_operand (fun _ _ _ => id) fun _ => Action.keeps_pure _, rfl⟩
  | statement (.expression value p), _, rfl =>
    exact ⟨_, resumedBy_of_operand (fun _ _ _ => id) fun _ => Action.keeps_pure _, rfl⟩
  | statement (.conditional choices otherwise p), _, rfl =>
    refine ⟨_, ⟨fun result => ?_, ?_⟩, rfl⟩
    · cases result with
      | some flow => exact Action.keeps_pure flow
      | none =>
        cases otherwise with
        | none => exact Action.keeps_pure _
        | some body => exact keeps (.statements body)
    · rintro value p ending rfl
      exact ⟨_, rfl, fun _ => rfl⟩
  | statement (.whileLoop condition body p), _, rfl =>
    refine ⟨pure, ⟨fun flow => Action.keeps_pure flow, ?_⟩, (bind_pure _).symm⟩
    rintro value p ending rfl
    exact ⟨_, rfl, fun _ => rfl⟩
  | statement (.forLoop init condition update body p), _, rfl =>
    refine ⟨_, ⟨fun flow => ?_, ?_⟩, rfl⟩
    · cases flow with
      | normal =>
        exact Flow.keeps_repeatWhile (keeps (.expr condition))
          (Flow.keeps_andThen (keeps (.statements body)) (keeps (.statement update))) _
      | returned value p => exact Action.keeps_pure _
    · rintro value p ending rfl
      exact ⟨_, rfl, fun _ => rfl⟩
  | branches (⟨condition, body⟩ :: others), _, rfl =>
    refine ⟨_, resumedBy_of_operand (fun _ _ _ => id) fun value => ?_, rfl⟩
    split
    · exact (keeps (.statements body)).bind fun _ => Action.keeps_pure _
    · exact keeps (.branches others)
  | loop (granted + 1) condition body, _, rfl =>
    refine ⟨_, resumedBy_of_operand (fun _ _ _ => id) fun value => ?_, Flow.repeatWhile_succ _ _ _⟩
    split
    · exact Flow.keeps_andThen (keeps (.statements body)) (keeps (.loop granted condition body))
    · exact Action.keeps_pure _
  | exprs (first :: rest), _, rfl =>
    exact ⟨_, resumedBy_of_operand (fun _ _ _ => id) fun value => (keeps (.exprs rest)).bind
      fun _ => Action.keeps_pure _, rfl⟩
  | expr single, _, rfl =>
    refine ⟨_, resumedBy_of_operand (fun _ _ _ => id) fun values => ?_, single.eval_eq ctx.call⟩
    exact single.keeps_finish hcall values

/-- The value of an assignment runs first once the target has been checked. -/
theorem exists_next_of_assignment (ctx : Context) {state : State} {name : String} {expr : Expr}
    {p : Position} (hR : AllowsDeclarations R)
    (htarget : state.environment.checkTarget ctx.config.assignment name p = .ok ()) :
    ∃ next : Value → Action Flow,
      @ResumedBy R (.statement (.assignment name expr p)) (.expr expr) next ∧
        ((Statement.assignment name expr p).run ctx).perform state =
          (expr.eval ctx.call >>= next).perform state := by
  refine ⟨_, ?_, Statement.perform_assignment htarget⟩
  exact resumedBy_of_operand (fun _ _ _ => id) fun _ => keeps_declare fun _ _ => hR.declare

end Part

namespace Moment

/-! ## From a part inside back to the part -/

variable {σ : Type} [Console σ] {config : Config} {rounds : Nat} {m m' : Moment σ}

section

variable {α β : Type} {action : Action α} {value : α} {after : State} {left : σ}

theorem Gives.reaches (h : m.Gives action value after left) (next : α → Action β) :
    ((action >>= next).perform m.state).Reaches m.console ((next value).perform after) left := by
  rw [Action.perform_bind]
  exact Dialogue.reaches_bind h _

theorem Gives.reaches_if {condition : Action Value} {value : Value}
    (h : m.Gives condition value after left) (first second : Action α) :
    ((condition >>= fun value => if value.isTruthy then first else second).perform m.state).Reaches
      m.console (if value.isTruthy then first.perform after else second.perform after) left := by
  have hreach := h.reaches fun value => if value.isTruthy then first else second
  rwa [apply_ite (Action.perform · after)] at hreach

theorem Gives.reaches_round {condition : Action Value} {value : Value}
    (h : m.Gives condition value after left) (hvalue : value.isTruthy = true) (granted : Nat)
    (body : Action Flow) :
    ((Flow.repeatWhile (granted + 1) condition body).perform m.state).Reaches m.console
      ((Flow.andThen body (Flow.repeatWhile granted condition body)).perform after) left := by
  rw [Flow.repeatWhile_succ]
  have hreach := h.reaches_if (Flow.andThen body (Flow.repeatWhile granted condition body))
    (pure .normal)
  rwa [if_pos hvalue] at hreach

omit [IsPreorder State R] in
theorem Gives.keeps (h : m.Gives action value after left) (hkeeps : action.Keeps R) :
    R m.state after := by
  have hafter := (hkeeps m.state).conduct m.console
  rwa [show _ = _ from h] at hafter

end

/--
From the part inside back to the part: what is kept up to the part inside, which the run comes to,
and how the part goes on then.
-/
def Resumes (R : State → State → Prop) (config : Config) (rounds : Nat) (m m' : Moment σ) : Prop :=
  R m.state m'.state ∧ ∃ next : m'.part.Result → Action m.part.Result, Part.ResumedBy R next ∧
    (m.run config rounds).Reaches m.console (m'.run config rounds >>= Action.resume next) m'.console

omit [IsPreorder State R] in
theorem resumes_later {part : Part} {after : State} {left : σ}
    {next : part.Result → Action m.part.Result} {d : Dialogue (Except Halt m.part.Result × State)}
    (hafter : R m.state after) (hnext : Part.ResumedBy R next)
    (hreach : (m.run config rounds).Reaches m.console d left)
    (hd : d = (part.run (m.context config rounds) >>= next).perform after) :
    Resumes R config rounds m (m.later part after left) := by
  rw [hd, Action.perform_bind_resume] at hreach
  exact ⟨hafter, next, hnext, hreach⟩

/-- There is one case for each way in which a moment leads to another one. -/
theorem Leads.resumes (hR : AllowsDeclarations R)
    (hcall : (m.context config rounds).call.Keeps R) (h : Leads config rounds m m')
    (hcallers : m'.callers = m.callers) : Resumes R config rounds m m' := by
  have keeps (part : Part) : (part.run (m.context config rounds)).Keeps R :=
    part.keeps_run hR hcall
  -- A part that is the last to run has nothing behind it.
  have last {α : Type} (action : Action α) (state : State) :
      action.perform state = (action >>= pure).perform state := by rw [bind_pure]
  obtain ⟨part, state, console, calls, callers⟩ := m
  cases h with
  | first h =>
    obtain ⟨next, hnext, hrun⟩ := Part.exists_next hR hcall h
    exact resumes_later (refl_of R state) hnext (.refl _ _)
      (congrArg (Action.perform · state) hrun)
  | entryPoint h hbody hmain hparams =>
    cases h
    exact resumes_later (hbody.keeps (keeps (.outermost _)))
      (Part.resumedBy_of_operand (fun _ _ _ => id) fun _ => Action.keeps_environment)
      (hbody.reaches _) (Program.perform_runEntryPoint_bind Action.environment hmain hparams)
  | outermost h hfirst =>
    cases h
    refine resumes_later (hfirst.keeps (keeps (.statement _))) ⟨Action.keeps_pure, ?_⟩
      (hfirst.reaches _) (last _ _)
    rintro value p ending rfl
    exact ⟨_, rfl, fun _ => rfl⟩
  | statements h hfirst =>
    cases h
    refine resumes_later (hfirst.keeps (keeps (.statement _))) ⟨Action.keeps_pure, ?_⟩
      (hfirst.reaches _) (last _ _)
    rintro value p ending rfl
    exact ⟨_, rfl, fun _ => rfl⟩
  | assignment h htarget =>
    cases h
    obtain ⟨next, hnext, hrun⟩ :=
      Part.exists_next_of_assignment (context config rounds _) hR htarget
    exact resumes_later (refl_of R state) hnext (.refl _ _) hrun
  | otherwise h hbranches =>
    cases h
    refine resumes_later (hbranches.keeps (keeps (.branches _))) ⟨Action.keeps_pure, ?_⟩
      (hbranches.reaches _) (last _ _)
    rintro value p ending rfl
    exact ⟨_, rfl, fun _ => rfl⟩
  | forLoop h hinit =>
    cases h
    refine resumes_later (hinit.keeps (keeps (.statement _))) ⟨Action.keeps_pure, ?_⟩
      (hinit.reaches _) ((congrArg (Action.perform · _) (Part.run_loop_append _ _ _ _)).trans
        (last _ _))
    rintro value p ending rfl
    exact ⟨_, rfl, fun _ => rfl⟩
  | branch h hcondition hvalue =>
    cases h
    refine resumes_later (hcondition.keeps (keeps (.expr _))) ⟨fun _ => Action.keeps_pure _, ?_⟩
      (hcondition.reaches_if _ _) (if_pos hvalue)
    rintro value p ending rfl
    exact ⟨_, rfl, fun _ => rfl⟩
  | branches h hcondition hvalue =>
    cases h
    refine resumes_later (hcondition.keeps (keeps (.expr _))) ⟨Action.keeps_pure, ?_⟩
      (hcondition.reaches_if _ _) ((if_neg (by simp [hvalue])).trans (last _ _))
    rintro value p ending rfl
    exact ⟨_, rfl, fun _ => rfl⟩
  | round h hcondition hvalue =>
    cases h
    refine resumes_later (hcondition.keeps (keeps (.expr _))) ⟨fun flow => ?_, ?_⟩
      (hcondition.reaches_round hvalue _ _) rfl
    · cases flow with
      | normal => exact keeps (.loop _ _ _)
      | returned value p => exact Action.keeps_pure _
    · rintro value p ending rfl
      exact ⟨_, rfl, fun _ => rfl⟩
  | loop h hcondition hvalue hbody =>
    cases h
    refine resumes_later (trans_of R (hcondition.keeps (keeps (.expr _)))
      (hbody.keeps (keeps (.statements _)))) ⟨Action.keeps_pure, ?_⟩
      ((hcondition.reaches_round hvalue _ _).trans (hbody.reaches _)) (last _ _)
    rintro value p ending rfl
    exact ⟨_, rfl, fun _ => rfl⟩
  | exprs h hfirst =>
    cases h
    exact resumes_later (hfirst.keeps (keeps (.expr _))) (Part.resumedBy_of_operand
      (fun _ _ _ => id) fun _ => Action.keeps_pure _) (hfirst.reaches _) rfl
  | arguments h hargs =>
    cases h
    exact resumes_later (hargs.keeps (keeps (.exprs _))) (Part.resumedBy_of_operand
      (fun _ _ _ => id) Action.keeps_pure) (hargs.reaches _) (last _ _)
  | body h hbuiltin hfind hframe hdepth hcalls => exact absurd hcallers (List.cons_ne_self _ _)

theorem Resumes.refl (m : Moment σ) : Resumes R config rounds m m := by
  refine ⟨refl_of R m.state, pure, ⟨Action.keeps_pure, fun h => ⟨_, h, fun after => ?_⟩⟩, ?_⟩
  · rw [Action.resume_pure]
  · rw [Action.resume_pure, Dialogue.bind_done]
    exact .refl _ _

theorem Resumes.trans {m'' : Moment σ} (h : Resumes R config rounds m m')
    (h' : Resumes R config rounds m' m'') : Resumes R config rounds m m'' := by
  obtain ⟨hstate, next, hnext, hreach⟩ := h
  obtain ⟨hstate', next', hnext', hreach'⟩ := h'
  refine ⟨trans_of R hstate hstate', fun result => next' result >>= next,
    ⟨fun result => (hnext'.keeps result).bind hnext.keeps, fun hreturned => ?_⟩, ?_⟩
  · obtain ⟨stop', hstop', hresume'⟩ := hnext'.returns hreturned
    obtain ⟨stop, hstop, hresume⟩ := hnext.returns hstop'
    refine ⟨stop, hstop, fun after => ?_⟩
    rw [Action.resume_bind, hresume', Dialogue.done_bind, hresume]
  · have hlater := hreach.trans (hreach'.bind (Action.resume next))
    rw [Dialogue.bind_bind] at hlater
    rwa [funext (Action.resume_bind next' next)]

/-- What is kept from a moment to a later one of the same call, and how the part goes on then. -/
theorem resumes_of_reflTransGen (hR : AllowsDeclarations R)
    (hcall : ∀ calls, Calling.Keeps R (invoke config rounds calls))
    (h : Relation.ReflTransGen (LeadsWithin config rounds) m m') :
    Resumes R config rounds m m' := by
  induction h with
  | refl => exact .refl m
  | tail _ hleads ih => exact ih.trans (hleads.1.resumes hR (hcall _) hleads.2)

/--
From the body of a function back to the call, which drops the bindings of the body. The function
table is that of the caller at first.
-/
theorem Leads.concludes (h : Leads config rounds m m') (hcallers : m'.callers ≠ m.callers) :
    m'.state.functions = m.state.functions ∧
    ∃ rest : Except Halt m'.part.Result × State → Dialogue (Except Halt m.part.Result × State),
      (∀ stop, (rest stop).Ends fun (_, after) =>
        { stop.2 with environment := m.state.environment, depth := stop.2.depth - 1 } = after) ∧
      (m.run config rounds).Reaches m.console (m'.run config rounds >>= rest) m'.console := by
  obtain ⟨part, state, console, calls, callers⟩ := m
  cases h with
  | body h hbuiltin hfind hframe hdepth hcalls =>
    cases h
    cases hcalls
    exact ⟨rfl, _, Function.ends_conclude _ _ _,
      .of_eq (perform_invoke_body hbuiltin hfind hframe hdepth) _⟩
  | _ => exact absurd rfl hcallers

/-! ## Moments lie on runs -/

/-- The run of the part of `m` comes to where the part of `m'` is about to run, and goes on then. -/
def LiesOn (config : Config) (rounds : Nat) (m' m : Moment σ) : Prop :=
  ∃ rest, (m.run config rounds).Reaches m.console (m'.run config rounds >>= rest) m'.console

theorem Leads.liesOn (h : Leads config rounds m m') : LiesOn config rounds m' m := by
  by_cases hcallers : m'.callers = m.callers
  · obtain ⟨-, next, -, hreach⟩ := h.resumes allowsDeclarations_sameDepth
      (invoke_sameDepth config rounds m.calls) hcallers
    exact ⟨_, hreach⟩
  · obtain ⟨-, rest, -, hreach⟩ := h.concludes hcallers
    exact ⟨rest, hreach⟩

theorem LiesOn.trans {m'' : Moment σ} (h : LiesOn config rounds m' m)
    (h' : LiesOn config rounds m'' m') : LiesOn config rounds m'' m := by
  obtain ⟨rest, hreach⟩ := h
  obtain ⟨rest', hreach'⟩ := h'
  have hlater := hreach.trans (hreach'.bind rest)
  rw [Dialogue.bind_bind] at hlater
  exact ⟨_, hlater⟩

/-- The moments of a run lie on it. -/
theorem VisitedBy.liesOn {program : Program} {console : σ}
    (h : m.VisitedBy config rounds program console) :
    LiesOn config rounds m (start config program console) := by
  induction h with
  | refl => exact ⟨.done, by rw [Dialogue.bind_done]; exact .refl _ _⟩
  | tail _ hleads ih => exact ih.trans hleads.liesOn

end Moment

end Arrow
