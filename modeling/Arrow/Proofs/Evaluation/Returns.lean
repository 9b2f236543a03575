import Arrow.Proofs.Evaluation.Bindings
import Arrow.Proofs.Evaluation.Causes
import Arrow.Proofs.Evaluation.Layout
import Arrow.Proofs.Evaluation.Resumption
import Arrow.Proofs.Grammar.Arrows

/-!
# Where returns lead

A part has returned if a statement in it has. The way back from the end of a part leads to a moment
of the same call at which a statement returns (`Moment.traces`, `Moment.returnsWithin_program`), and
the parts around such a moment end at once, up to the call or the program (`Moment.Resumes.exits`).
So a return ends its own call, or, outside all calls, the run (`Moment.returns_scoped`).
-/

namespace Arrow

/-! ## Halts that are no returns -/

/-- A statement has returned outside functions. -/
def Halt.OfReturn (halt : Halt) : Prop :=
  ∃ p, halt = .error (.runtime (.returnOutsideFunction p))

theorem Value.arithmetic_ne_returnOutsideFunction (op : Operator) (a b : Value) (p q : Position) :
    arithmetic op a b p ≠ .error (.returnOutsideFunction q) := by
  unfold arithmetic
  split
  · exact nofun
  · split
    · split <;> exact nofun
    · exact nofun

theorem Value.binary_ne_returnOutsideFunction (op : Operator) (a b : Value) (p q : Position) :
    binary op a b p ≠ .error (.returnOutsideFunction q) := by
  cases op
  case add | sub | mul | div => exact arithmetic_ne_returnOutsideFunction _ a b p q
  all_goals exact nofun

theorem excludes_ofReturn : Excludes Halt.OfReturn fun _ => True where
  exhausted := fun ⟨_, h⟩ => nomatch h
  reserved := by
    rintro _ ⟨p, heq⟩
    cases heq
    trivial
  binary := by
    rintro left op right p - a b _ hcause ⟨q, heq⟩
    cases heq
    exact Value.binary_ne_returnOutsideFunction op a b p q hcause

theorem Excludes.declared_true (state : State) : Declared (fun _ => True) state :=
  fun _ f _ => by
    cases f
    exact Statement.allIn_of_forall (fun _ => trivial) (fun _ => trivial) _

theorem Statement.avoids_return (config : Config) (rounds calls : Nat) (statement : Statement) :
    (statement.run ⟨config, rounds, invoke config rounds calls⟩).Avoids Halt.OfReturn
      (Excludes.Declared fun _ => True) :=
  (excludes_ofReturn.runRules (excludes_ofReturn.invoke config rounds calls)).run statement
    (statement.all_of_forall (fun _ => trivial) fun _ => trivial)

theorem conduct_ne_returnOutsideFunction {α σ : Type} [Console σ] {action : Action α}
    (h : action.Avoids Halt.OfReturn (Excludes.Declared fun _ => True)) (state : State)
    (console : σ) (p : Position) :
    ((action.perform state).conduct console).1.1 ≠
      .error (.error (.runtime (.returnOutsideFunction p))) :=
  ((h state (Excludes.declared_true state)).conduct console).1 _ ⟨p, rfl⟩

/-- How a call at `p` ends when the body of the function has returned the value. -/
def Function.outcome (f : Function) (p : Position) (value : Value) : Except Halt Value :=
  ((checkDeclared f.returnType value s!"Function '{f.name}'" p).map fun _ =>
    value).mapError (.error ∘ .runtime)

namespace Moment

variable {σ : Type} [Console σ] {config : Config} {rounds : Nat} {m m' : Moment σ}
  {value : Value} {p : Position} {after : State} {left : σ}

/-! ## Moments that return -/

/-- A statement is to return, and the value that it evaluates leaves a state and a console. -/
structure Returns (config : Config) (rounds : Nat) (m : Moment σ) (expr : Expr) (p : Position)
    (value : Value) (after : State) (left : σ) : Prop where
  part : m.part = .statement (.returnValue expr p)
  gives : m.Gives (expr.eval (m.context config rounds).call) value after left

/-- The part ends because a statement has returned. -/
def Exits (config : Config) (rounds : Nat) (m : Moment σ) (value : Value) (p : Position)
    (after : State) (left : σ) : Prop :=
  ∃ stop, m.part.Returned value p stop ∧
    (m.run config rounds).conduct m.console = ((stop, after), left)

/-- A statement returns at a moment of the same call. -/
def ReturnsWithin (config : Config) (rounds : Nat) (m : Moment σ) (value : Value) (p : Position)
    (after : State) (left : σ) : Prop :=
  ∃ m' expr, Relation.ReflTransGen (LeadsWithin config rounds) m m' ∧
    m'.Returns config rounds expr p value after left

omit [Console σ] in
theorem has_returnValue {expr : Expr} (h : m.part = .statement (.returnValue expr p)) :
    m.part.Has (.returnValue expr p) := by
  rw [h]
  exact ⟨_, List.mem_singleton_self _, .self⟩

theorem Returns.exits {expr : Expr} (h : m.Returns config rounds expr p value after left) :
    m.Exits config rounds value p after left := by
  obtain ⟨part, state, console, calls, callers⟩ := m
  obtain ⟨hpart, hgives⟩ := h
  cases hpart
  exact ⟨.ok (.returned value p), rfl, (hgives.reaches _).conduct_eq⟩

theorem Resumes.exits {R : State → State → Prop} (h : Resumes R config rounds m m')
    (hexits : m'.Exits config rounds value p after left) :
    m.Exits config rounds value p after left := by
  obtain ⟨-, next, hnext, hreach⟩ := h
  obtain ⟨stop', hstop', hrun'⟩ := hexits
  obtain ⟨stop, hstop, hresume⟩ := hnext.returns hstop'
  refine ⟨stop, hstop, ?_⟩
  rw [hreach.conduct_eq, Dialogue.conduct_bind, hrun', hresume]
  rfl

theorem Leads.returnsWithin (h : Leads config rounds m m') (hcallers : m'.callers = m.callers)
    (hreturns : m'.ReturnsWithin config rounds value p after left) :
    m.ReturnsWithin config rounds value p after left := by
  obtain ⟨m'', expr, hpath, hlast⟩ := hreturns
  exact ⟨m'', expr, .head ⟨h, hcallers⟩ hpath, hlast⟩

/-! ## From the end of a part to the statement that has returned -/

section

variable {α β : Type} {action : Action α} {next : α → Action β} {result : β}

theorem Gives.exists_of_bind (h : m.Gives (action >>= next) result after left) :
    ∃ value middle left', m.Gives action value middle left' ∧
      ((next value).perform middle).conduct left' = ((.ok result, after), left) := by
  unfold Gives at h ⊢
  rw [Action.perform_bind_resume, Dialogue.conduct_bind] at h
  cases haction : (action.perform m.state).conduct m.console with
  | mk ending left' =>
    obtain ⟨_ | value, middle⟩ := ending
    · rw [haction] at h
      cases h
    · rw [haction] at h
      exact ⟨value, middle, left', rfl, h⟩

theorem not_gives_returned_of_normal (action : Action Unit) {flow : Action Flow}
    (hflow : flow = action >>= fun _ => pure .normal) :
    ¬ m.Gives flow (.returned value p) after left := by
  intro h
  rw [hflow] at h
  obtain ⟨_, middle, left', -, hnext⟩ := h.exists_of_bind
  cases hnext

/-- If a sequence returns, then its first part does, or that runs through and the second does. -/
theorem Gives.of_andThen {first second : Action Flow}
    (h : m.Gives (Flow.andThen first second) (.returned value p) after left) :
    m.Gives first (.returned value p) after left ∨ ∃ middle left',
      m.Gives first .normal middle left' ∧
        (second.perform middle).conduct left' = ((.ok (.returned value p), after), left) := by
  obtain ⟨flow, middle, left', hfirst, hnext⟩ := h.exists_of_bind
  cases flow with
  | normal => exact .inr ⟨middle, left', hfirst, hnext⟩
  | returned value' p' =>
    cases hnext
    exact .inl hfirst

end

/-- Where the statement returns, it is at a moment of the same call. -/
def Traces (σ : Type) [Console σ] (config : Config) (rounds : Nat) (statement : Statement) : Prop :=
  ∀ {m : Moment σ} {value p after left},
    m.Gives (statement.run (m.context config rounds)) (.returned value p) after left →
      (m.now (.statement statement)).ReturnsWithin config rounds value p after left

theorem returnsWithin_statements {body : List Statement}
    (hbody : ∀ statement ∈ body, Traces σ config rounds statement)
    (h : m.Gives (Statement.runAll (m.context config rounds) body) (.returned value p) after left) :
    (m.now (.statements body)).ReturnsWithin config rounds value p after left := by
  induction body generalizing m with
  | nil => cases h
  | cons first rest ih =>
    obtain ⟨hfirst, hrest⟩ := List.forall_mem_cons.1 hbody
    rcases h.of_andThen with hreturned | ⟨middle, left', hnormal, hreturned⟩
    · exact Leads.returnsWithin (.first rfl) rfl (hfirst hreturned)
    · have hlater : Leads config rounds (m.now (.statements (first :: rest)))
          (m.later (.statements rest) middle left') := .statements rfl hnormal
      exact hlater.returnsWithin rfl (@ih (m.later (.statements rest) middle left') hrest hreturned)

theorem returnsWithin_branches {branches : List Branch}
    (hbranches : ∀ branch ∈ branches, ∀ statement ∈ branch.body, Traces σ config rounds statement)
    (h : m.Gives (Statement.runBranches (m.context config rounds) branches)
      (some (.returned value p)) after left) :
    (m.now (.branches branches)).ReturnsWithin config rounds value p after left := by
  induction branches generalizing m with
  | nil => cases h
  | cons branch others ih =>
    obtain ⟨condition, body⟩ := branch
    obtain ⟨hbody, hothers⟩ := List.forall_mem_cons.1 hbranches
    obtain ⟨held, middle, left', hcondition, hnext⟩ := h.exists_of_bind
    cases hheld : held.isTruthy with
    | true =>
      rw [if_pos hheld] at hnext
      have hlater : Leads config rounds (m.now (.branches (⟨condition, body⟩ :: others)))
          (m.later (.statements body) middle left') := .branch rfl hcondition hheld
      have hsome : (m.later (.statements body) middle left').Gives _ _ after left := hnext
      obtain ⟨flow, _, _, hflow, hend⟩ := hsome.exists_of_bind
      cases hend
      exact hlater.returnsWithin rfl
        (returnsWithin_statements (m := m.later (.statements body) middle left') hbody hflow)
    | false =>
      rw [if_neg (by simp [hheld])] at hnext
      have hlater : Leads config rounds (m.now (.branches (⟨condition, body⟩ :: others)))
          (m.later (.branches others) middle left') := .branches rfl hcondition hheld
      exact hlater.returnsWithin rfl (@ih (m.later (.branches others) middle left') hothers hnext)

/-- The induction is on the rounds that the loop may take. -/
theorem returnsWithin_loop {condition : Expr} {body : List Statement} {granted : Nat}
    (hbody : ∀ statement ∈ body, Traces σ config rounds statement)
    (h : m.Gives (Flow.repeatWhile granted (condition.eval (m.context config rounds).call)
      (Statement.runAll (m.context config rounds) body)) (.returned value p) after left) :
    (m.now (.loop granted condition body)).ReturnsWithin config rounds value p after left := by
  induction granted generalizing m with
  | zero => cases h
  | succ granted ih =>
    rw [Flow.repeatWhile_succ] at h
    obtain ⟨held, middle, left', hcondition, hnext⟩ := h.exists_of_bind
    cases hheld : held.isTruthy with
    | true =>
      rw [if_pos hheld] at hnext
      have hround : Leads config rounds (m.now (.loop (granted + 1) condition body))
          (m.later (.statements body) middle left') := .round rfl hcondition hheld
      have hthen : (m.later (.statements body) middle left').Gives _ _ after left := hnext
      rcases hthen.of_andThen with hreturned | ⟨middle', left'', hnormal, hreturned⟩
      · exact hround.returnsWithin rfl
          (returnsWithin_statements (m := m.later (.statements body) middle left') hbody hreturned)
      · have hloop : Leads config rounds (m.now (.loop (granted + 1) condition body))
            (m.later (.loop granted condition body) middle' left'') :=
          .loop rfl hcondition hheld hnormal
        exact hloop.returnsWithin rfl
          (@ih (m.later (.loop granted condition body) middle' left'') hreturned)
    | false =>
      rw [if_neg (by simp [hheld])] at hnext
      cases hnext

theorem returnsWithin_conditional {branches : List Branch} {otherwise : Option (List Statement)}
    {q : Position}
    (hchildren : ∀ child ∈ (Statement.conditional branches otherwise q).children,
      Traces σ config rounds child)
    (h : m.Gives ((Statement.conditional branches otherwise q).run (m.context config rounds))
      (.returned value p) after left) :
    (m.now (.statement (.conditional branches otherwise q))).ReturnsWithin config rounds value p
      after left := by
  obtain ⟨result, middle, left', hfirst, hnext⟩ := h.exists_of_bind
  cases result with
  | some flow =>
    cases hnext
    refine Leads.returnsWithin (.first rfl) rfl (returnsWithin_branches ?_ hfirst)
    intro branch hbranch child hchild
    exact hchildren child (List.mem_append_left _ (List.mem_flatMap.2 ⟨branch, hbranch, hchild⟩))
  | none =>
    cases otherwise with
    | none => cases hnext
    | some body =>
      have hlater : Leads config rounds
          (m.now (.statement (.conditional branches (some body) q)))
          (m.later (.statements body) middle left') := .otherwise rfl hfirst
      exact hlater.returnsWithin rfl (returnsWithin_statements
        (m := m.later (.statements body) middle left')
        (fun child hchild => hchildren child (List.mem_append_right _ hchild)) hnext)

theorem returnsWithin_forLoop {init : Statement} {condition : Expr} {update : Statement}
    {body : List Statement} {q : Position}
    (hchildren : ∀ child ∈ (Statement.forLoop init condition update body q).children,
      Traces σ config rounds child)
    (h : m.Gives ((Statement.forLoop init condition update body q).run (m.context config rounds))
      (.returned value p) after left) :
    (m.now (.statement (.forLoop init condition update body q))).ReturnsWithin config rounds
      value p after left := by
  rcases h.of_andThen with hreturned | ⟨middle, left', hnormal, hreturned⟩
  · exact Leads.returnsWithin (.first rfl) rfl (hchildren init List.mem_cons_self hreturned)
  · have hlater : Leads config rounds
        (m.now (.statement (.forLoop init condition update body q)))
        (m.later (.loop rounds condition (body ++ [update])) middle left') := .forLoop rfl hnormal
    have hround : ∀ child ∈ body ++ [update], Traces σ config rounds child := by
      intro child hchild
      rw [List.mem_append, List.mem_singleton] at hchild
      simp only [Statement.children, List.mem_cons] at hchildren
      exact hchildren child (by tauto)
    rw [Part.run_loop_append] at hreturned
    exact hlater.returnsWithin rfl (returnsWithin_loop
      (m := m.later (.loop rounds condition (body ++ [update])) middle left') hround hreturned)

/-- The induction is on the statements in one another. -/
theorem traces (statement : Statement) : Traces σ config rounds statement := by
  induction statement using Statement.inductionOn with
  | step outer ih =>
    intro m value p after left h
    cases outer with
    | declaration kind name type init q =>
      refine absurd h (not_gives_returned_of_normal (do
        let value ← init.eval (m.context config rounds).call
        Action.check (checkDeclared type value s!"Variable '{name}'" q)
        let environment ← Action.check ((← Action.environment).declare name value kind q)
        Action.rebind environment) ?_)
      simp only [Statement.run, bind_assoc]
    | assignment name expr q =>
      refine absurd h (not_gives_returned_of_normal (do
        Action.check ((← Action.environment).checkTarget config.assignment name q)
        let value ← expr.eval (m.context config rounds).call
        let environment ← Action.check ((← Action.environment).assign name value q)
        Action.rebind environment) ?_)
      simp only [Statement.run, bind_assoc]
      rfl
    | function definition =>
      refine absurd h (not_gives_returned_of_normal (do
        let functions ← Action.check ((← Action.functions).declare definition)
        Action.redefine functions) ?_)
      simp only [Statement.run, bind_assoc]
    | expression expr q =>
      obtain ⟨_, _, _, -, hnext⟩ := h.exists_of_bind
      cases hnext
    | returnValue expr q =>
      obtain ⟨result, middle, left', hexpr, hnext⟩ := h.exists_of_bind
      cases hnext
      exact ⟨_, expr, .refl, rfl, hexpr⟩
    | conditional branches otherwise q => exact returnsWithin_conditional ih h
    | whileLoop condition body q =>
      exact Leads.returnsWithin (.first rfl) rfl (returnsWithin_loop ih h)
    | forLoop init condition update body q => exact returnsWithin_forLoop ih h

/-! ## Outermost statements -/

theorem returnsWithin_outermost {body : List Statement}
    (h : ((Program.runBody (m.context config rounds) body).perform m.state).conduct m.console =
      ((.error (.error (.runtime (.returnOutsideFunction p))), after), left)) :
    ∃ value, (m.now (.outermost body)).ReturnsWithin config rounds value p after left := by
  induction body generalizing m with
  | nil => cases h
  | cons first rest ih =>
    have hhalt := conduct_ne_returnOutsideFunction (first.avoids_return config rounds m.calls)
      m.state m.console p
    unfold Program.runBody at h
    rw [Action.perform_bind_resume, Dialogue.conduct_bind] at h
    cases hfirst : ((first.run (m.context config rounds)).perform m.state).conduct m.console with
    | mk ending left' =>
      rw [hfirst] at h
      obtain ⟨halt | flow, middle⟩ := ending
      · cases h
        exact absurd (congrArg (·.1.1) hfirst) hhalt
      · cases flow with
        | normal =>
          have hlater : Leads config rounds (m.now (.outermost (first :: rest)))
              (m.later (.outermost rest) middle left') := .outermost rfl hfirst
          obtain ⟨value, hvalue⟩ := @ih (m.later (.outermost rest) middle left') h
          exact ⟨value, hlater.returnsWithin rfl hvalue⟩
        | returned value q =>
          cases h
          exact ⟨value, Leads.returnsWithin (.first rfl) rfl (traces first hfirst)⟩

theorem returnsWithin_program {program : Program}
    (h : ((program.run (m.context config rounds)).perform m.state).conduct m.console =
      ((.error (.error (.runtime (.returnOutsideFunction p))), after), left)) :
    ∃ value, (m.now (.program program)).ReturnsWithin config rounds value p after left := by
  have hentry : (Program.runEntryPoint (m.context config rounds) >>= fun _ =>
      Action.environment).Avoids Halt.OfReturn (Excludes.Declared fun _ => True) :=
    (Program.avoids_runEntryPoint (excludes_ofReturn.invoke config rounds m.calls)
      fun _ ⟨_, h⟩ => nomatch h).bind fun _ => Action.avoids_environment
  unfold Program.run at h
  rw [Action.perform_bind_resume, Dialogue.conduct_bind] at h
  cases hbody : ((Program.runBody (m.context config rounds) program.body).perform
      m.state).conduct m.console with
  | mk ending left' =>
    rw [hbody] at h
    obtain ⟨halt | _, middle⟩ := ending
    · cases h
      obtain ⟨value, hvalue⟩ := returnsWithin_outermost hbody
      exact ⟨value, Leads.returnsWithin (.first rfl) rfl hvalue⟩
    · refine absurd ?_ (conduct_ne_returnOutsideFunction hentry middle left' p)
      exact congrArg (·.1.1) h

/-! ## Calls -/

/-- If the body of a function returns, the call ends with the value, where its type allows that. -/
theorem conduct_invoke_of_returned {calls : Nat} {name : String} {args : List Value}
    {q : Position} {f : Function} {state : State} {frame : Environment} {console : σ}
    (hbuiltin : Builtin.ofName? name = none) (hfind : state.functions.find? name = some f)
    (hframe : f.frame args q state.environment = .ok frame)
    (hdepth : state.depth < config.maxCallDepth)
    (hbody : ((Statement.runAll ⟨config, rounds, invoke config rounds calls⟩ f.body).perform
        { state with environment := frame, depth := state.depth + 1 }).conduct console =
      ((.ok (.returned value p), after), left)) :
    ((invoke config rounds (calls + 1) name args q).perform state).conduct console =
      ((f.outcome q value, { after with environment := state.environment, depth := state.depth }),
        left) := by
  have hkeeps : (Statement.runAll ⟨config, rounds, invoke config rounds calls⟩ f.body).Keeps
      SameDepth := Statement.keeps_runAll allowsDeclarations_sameDepth
    (invoke_sameDepth config rounds calls) f.body
  have hafter := (hkeeps { state with environment := frame, depth := state.depth + 1 }).conduct
    console
  rw [hbody] at hafter
  have hafter : after.depth = state.depth + 1 := hafter
  rw [perform_invoke_body hbuiltin hfind hframe hdepth, Dialogue.conduct_bind, hbody]
  unfold Function.conclude Action.resume Function.outcome
  dsimp only [Flow.value]
  rw [hafter, Nat.add_sub_cancel]
  cases checkDeclared f.returnType value s!"Function '{f.name}'" q <;> rfl

/-- Where a statement returns in a call, that call ends. -/
theorem conduct_call_of_returns {m₁ m₂ : Moment σ} {name : String} {args : List Value}
    {q : Position} {expr : Expr} (hcall : m.part = .call name args q)
    (hbody : Leads config rounds m m₁)
    (hpath : Relation.ReflTransGen (LeadsWithin config rounds) m₁ m₂)
    (h : m₂.Returns config rounds expr p value after left) :
    ∃ f, m.state.functions.find? name = some f ∧
      (((m.context config rounds).call name args q).perform m.state).conduct m.console =
        ((f.outcome q value,
          { after with environment := m.state.environment, depth := m.state.depth }), left) := by
  have hresumes : Resumes SameDepth config rounds m₁ m₂ :=
    resumes_of_reflTransGen allowsDeclarations_sameDepth (invoke_sameDepth config rounds) hpath
  obtain ⟨stop, hstop, hrun⟩ := hresumes.exits h.exits
  obtain ⟨part, state, console, calls, callers⟩ := m
  cases hcall
  cases hbody with
  | body h hbuiltin hfind hframe hdepth hcalls =>
    cases h
    cases hcalls
    cases hstop
    exact ⟨_, hfind, conduct_invoke_of_returned hbuiltin hfind hframe hdepth hrun⟩
  | _ => contradiction

/-! ## Programs -/

theorem VisitedBy.resumes {program : Program} {console : σ}
    (h : m.VisitedBy config rounds program console) (hcallers : m.callers = []) :
    Resumes SameDepth config rounds (start config program console) m :=
  resumes_of_reflTransGen allowsDeclarations_sameDepth (invoke_sameDepth config rounds)
    (reflTransGen_leadsWithin h hcallers)

/-- A program fails for a return outside functions where one comes up in its run, at once. -/
theorem conduct_program_eq_iff {program : Program} {console : σ} :
    ((program.run (.outermost config rounds)).perform .initial).conduct console =
        ((.error (.error (.runtime (.returnOutsideFunction p))), after), left) ↔
      ∃ (m : Moment σ) (expr : Expr) (value : Value), m.VisitedBy config rounds program console ∧
        m.callers = [] ∧ m.Returns config rounds expr p value after left := by
  constructor
  · intro h
    obtain ⟨value, m, expr, hpath, hreturns⟩ :=
      returnsWithin_program (m := start config program console) h
    exact ⟨m, expr, value, hpath.lift id fun _ _ hleads => hleads.1,
      callers_eq_of_reflTransGen hpath, hreturns⟩
  · rintro ⟨m, expr, value, hvisited, hcallers, hreturns⟩
    obtain ⟨stop, rfl, hrun⟩ := (hvisited.resumes hcallers).exits hreturns.exits
    exact hrun

/-- A source text whose run fails is a program. -/
theorem exists_program_of_runtimeError {source : String} {console : σ} {cause : RuntimeError}
    (h : (runSource config rounds source).conduct console =
      (.error (.error (.runtime cause)), left)) :
    ∃ tokens program, tokenize source = .ok tokens ∧ parse tokens = .ok program := by
  cases htokens : tokenize source with
  | error cause' =>
    unfold runSource at h
    rw [htokens] at h
    cases h
  | ok tokens =>
    cases hparse : parse tokens with
    | error cause' =>
      rw [conduct_runSource_of_parseError htokens hparse] at h
      cases h
    | ok program => exact ⟨tokens, program, rfl, hparse⟩

/--
A statement returns only by a statement that occurs in it. A run fails for a return outside
functions if and only if one comes up in it outside all calls and its value has been evaluated: the
console is as the value has left it, and after the return nothing is left to be done. A return in a
call ends this call, which never fails for a return outside functions.
-/
theorem returns_scoped (config : Config) (rounds : Nat) :
    (∀ (m : Moment σ) (statement : Statement) (value : Value) (p : Position) (after : State)
      (left : σ), m.Gives (statement.run (m.context config rounds)) (.returned value p) after left →
        ∃ expr, (Statement.returnValue expr p).OccursIn statement) ∧
    (∀ (source : String) (console left : σ) (p : Position),
      (runSource config rounds source).conduct console =
          (.error (.error (.runtime (.returnOutsideFunction p))), left) ↔
        ∃ tokens program, tokenize source = .ok tokens ∧ parse tokens = .ok program ∧
          ∃ (m : Moment σ) (expr : Expr) (value : Value) (after : State),
            m.VisitedBy config rounds program console ∧ m.callers = [] ∧
            m.Returns config rounds expr p value after left) ∧
    (∀ (tokens : List Token) (program : Program), parse tokens = .ok program →
      ReturnsAtArrows tokens program.body) ∧
    (∀ (program : Program) (console : σ) (m : Moment σ) (expr : Expr) (p : Position),
      m.VisitedBy config rounds program console → m.callers = [] →
      m.part = .statement (.returnValue expr p) →
        (∃ statement ∈ program.body, (Statement.returnValue expr p).OccursIn statement) ∧
        ∃ rest, ((start config program console).run config rounds).Reaches console
            (m.run config rounds >>= rest) m.console ∧
          ∀ value stop state, m.part.Returned value p stop → rest (stop, state) =
            .done (.error (.error (.runtime (.returnOutsideFunction p))), state)) ∧
    (∀ (m m₁ m₂ : Moment σ) (name : String) (args : List Value) (expr : Expr) (p q : Position)
      (value : Value) (after : State) (left : σ), m.part = .call name args q →
      Leads config rounds m m₁ → Relation.ReflTransGen (Leads config rounds) m₁ m₂ →
      m₂.callers = m₁.callers → m₂.Returns config rounds expr p value after left →
      ∃ f, m.state.functions.find? name = some f ∧
        (((m.context config rounds).call name args q).perform m.state).conduct m.console =
          ((f.outcome q value,
            { after with environment := m.state.environment, depth := m.state.depth }), left)) ∧
    ∀ (calls : Nat) (name : String) (args : List Value) (state : State) (console : σ)
      (p q : Position),
      (((invoke config rounds calls name args q).perform state).conduct console).1.1 ≠
        .error (.error (.runtime (.returnOutsideFunction p))) := by
  refine ⟨?_, ?_, fun _ _ => parse_returnsAtArrows, ?_, ?_, ?_⟩
  · intro m statement value p after left h
    obtain ⟨m', expr, hpath, hreturns⟩ := traces statement h
    obtain ⟨outer, houter, hoccurs⟩ := has_of_reflTransGen hpath (has_returnValue hreturns.part)
    obtain rfl := List.mem_singleton.1 houter
    exact ⟨expr, hoccurs⟩
  · intro source console left p
    constructor
    · intro h
      obtain ⟨tokens, program, htokens, hparse⟩ := exists_program_of_runtimeError h
      rw [conduct_runSource_of_parse htokens hparse] at h
      refine ⟨tokens, program, htokens, hparse, ?_⟩
      cases hrun : program.ending (.outermost config rounds) console with
      | mk ending left' =>
        obtain ⟨result, after⟩ := ending
        rw [hrun] at h
        cases h
        obtain ⟨m, expr, value, h⟩ := conduct_program_eq_iff.1 hrun
        exact ⟨m, expr, value, after, h⟩
    · rintro ⟨tokens, program, htokens, hparse, m, expr, value, after, h⟩
      rw [conduct_runSource_of_parse htokens hparse,
        show program.ending _ _ = _ from conduct_program_eq_iff.2 ⟨m, expr, value, h⟩]
  · intro program console m expr p hvisited hcallers hpart
    have hpath := reflTransGen_leadsWithin hvisited hcallers
    refine ⟨has_of_reflTransGen hpath (has_returnValue hpart), ?_⟩
    obtain ⟨-, next, hnext, hreach⟩ := hvisited.resumes hcallers
    refine ⟨_, hreach, fun value stop state hstop => ?_⟩
    obtain ⟨stop', rfl, hresume⟩ := hnext.returns hstop
    exact hresume state
  · intro m m₁ m₂ name args expr p q value after left hcall hbody hpath hcallers hreturns
    exact conduct_call_of_returns hcall hbody (reflTransGen_leadsWithin hpath hcallers) hreturns
  · intro calls name args state console p q
    exact conduct_ne_returnOutsideFunction
      (excludes_ofReturn.invoke config rounds calls name args q) state console p

/-- A call returns from a loop, and then so does an outermost statement, from another one. -/
theorem returns_scoped_of_loops :
    let source := "<fn>f()\x7bwhile(1)\x7b->2\x7d\x7dwhile(1)\x7bprint(f())->3\x7dprint(4)"
    let text (content : String) : Expr := .literal (.text content) .start
    let returning : Statement := .returnValue (text "a") ⟨1, 2⟩
    let loop : Statement := .whileLoop (text "b") [returning, returning] .start
    let f : Function := ⟨"f", [], none, [loop, returning], .start⟩
    let state : State := ⟨.empty, ⟨[f]⟩, 0⟩
    let console : Transcript := ⟨[], ""⟩
    (∃ tokens program expr value after, tokenize source = .ok tokens ∧
      parse tokens = .ok program ∧ ReturnsAtArrows tokens program.body ∧
      ∃ m : Moment Transcript, m.VisitedBy .standard 1 program console ∧ m.callers = [] ∧
        m.Returns .standard 1 expr ⟨1, 42⟩ value after ⟨[], "2\n"⟩ ∧
        ∃ statement ∈ program.body, (Statement.returnValue expr ⟨1, 42⟩).OccursIn statement) ∧
    ∃ g, state.functions.find? "f" = some g ∧
      ((invoke .standard 1 1 "f" [] .start).perform state).conduct console =
        ((g.outcome .start (.text "a"), state), console) := by
  intro source text returning loop f state console
  obtain ⟨-, hfails, harrows, hvisited, hcalls, -⟩ := @returns_scoped Transcript _ .standard 1
  constructor
  · obtain ⟨tokens, program, htokens, hparse, m, expr, value, after, hm, hcallers, hreturns⟩ :=
      (hfails source console ⟨[], "2\n"⟩ ⟨1, 42⟩).1 (by cbv)
    exact ⟨tokens, program, expr, value, after, htokens, hparse, harrows tokens program hparse, m,
      hm, hcallers, hreturns, (hvisited program console m expr _ hm hcallers hreturns.part).1⟩
  · let m : Moment Transcript := ⟨.call "f" [] .start, state, console, 1, []⟩
    let body : Moment Transcript :=
      ⟨.statements f.body, { state with depth := 1 }, console, 0, [.empty]⟩
    have hbody : m.Leads .standard 1 body :=
      .body rfl (by decide) (by cbv) (by cbv) (by decide) rfl
    have hstatement : body.Leads .standard 1 (body.now (.statement loop)) := .first rfl
    have hloop : (body.now (.statement loop)).Leads .standard 1
        (body.now (.loop 1 (text "b") [returning, returning])) := .first rfl
    have hround : (body.now (.loop 1 (text "b") [returning, returning])).Leads .standard 1
        (body.now (.statements [returning, returning])) := .round rfl rfl rfl
    have hreturning : (body.now (.statements [returning, returning])).Leads .standard 1
        (body.now (.statement returning)) := .first rfl
    have hpath := (Relation.ReflTransGen.single hstatement).tail hloop |>.tail hround |>.tail
      hreturning
    exact hcalls m body (body.now (.statement returning)) "f" [] (text "a") ⟨1, 2⟩ .start
      (.text "a") body.state console rfl hbody hpath rfl ⟨rfl, rfl⟩

end Moment

end Arrow
