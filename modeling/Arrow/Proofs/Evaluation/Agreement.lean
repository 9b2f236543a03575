import Arrow.Evaluation.Program
import Arrow.Proofs.Evaluation.Confined
import Arrow.Proofs.Evaluation.Relaxed

/-!
# Runs from states that agree

Two environments agree on a set of names when they bind these alike. A part of a program that is
confined to the names runs alike from states that agree on them (`Statement.alike_run`), and a call
runs alike from states that agree on the names that are free in the functions it can reach
(`alike_invoke`). The second run may be under a relaxed configuration.
-/

namespace Arrow

/-! ## Environments -/

namespace Environment

/-- The names have the same bindings in both environments. -/
def AgreeOn (names : Set String) (e e' : Environment) : Prop :=
  ∀ name ∈ names, e.get? name = e'.get? name

variable {names : Set String} {e e' : Environment}

theorem AgreeOn.overlay (h : e.AgreeOn names e') (name : String) (value : Value)
    (kind : Mutability) :
    (e.overlay name value kind).AgreeOn (insert name names) (e'.overlay name value kind) := by
  intro other hother
  rw [get?_overlay, get?_overlay]
  split
  case isTrue => rfl
  case isFalse hne =>
    rcases hother with rfl | hother
    · exact absurd rfl hne
    · exact h other hother

theorem AgreeOn.declare (h : e.AgreeOn names e') {name : String} (hname : name ∈ names)
    (value : Value) (kind : Mutability) (p : Position) :
    Action.ResultsAlike (AgreeOn names) (e.declare name value kind p)
      (e'.declare name value kind p) := by
  unfold Environment.declare ensureWritable
  rw [h name hname]
  split
  · rfl
  · have hoverlay := h.overlay name value kind
    rw [Set.insert_eq_of_mem hname] at hoverlay
    exact hoverlay

end Environment

/-- Frames for the same arguments agree on the parameters, too. -/
theorem Function.overlayAll_agree (callee : String) (p : Position) {names : Set String} :
    ∀ (params : List Parameter) (args : List Value) (e e' : Environment),
      args.length = params.length → e.AgreeOn names e' →
      Action.ResultsAlike (Environment.AgreeOn (names ∪ Parameter.names params))
        (overlayAll callee p params args e) (overlayAll callee p params args e')
  | [], [], e, e', _, h => by
    rw [Parameter.names_nil, Set.union_empty]
    exact h
  | param :: params, arg :: args, e, e', hlength, h => by
    have hrest := overlayAll_agree callee p params args _ _ (Nat.succ.inj hlength)
      (h.overlay param.name arg param.mutability)
    rw [Set.insert_union, ← Set.union_insert, ← Parameter.names_cons] at hrest
    unfold overlayAll
    cases checkDeclared param.type arg s!"Parameter '{param.name}' of '{callee}'" p with
    | ok _ => exact hrest
    | error cause => exact rfl

theorem Function.frame_agree (f : Function) (args : List Value) (p : Position)
    {names : Set String} {e e' : Environment} (h : e.AgreeOn names e') :
    Action.ResultsAlike (Environment.AgreeOn (names ∪ Parameter.names f.params))
      (f.frame args p e) (f.frame args p e') := by
  unfold Function.frame
  split
  case isTrue hlength => exact overlayAll_agree f.name p f.params args e e' hlength h
  case isFalse => rfl

/-! ## States -/

/--
Two states agree when they bind the given names alike and differ in the environment only. The
functions in them are confined, so that their calls cannot tell the states apart either.
-/
structure State.Agree (free callees names : Set String) (s t : State) : Prop where
  environment : s.environment.AgreeOn names t.environment
  functions : s.functions = t.functions
  confined : s.functions.ConfinedTo free callees
  depth : s.depth = t.depth

/-- The bodies of calls begin in states that agree when their frames do. -/
theorem State.Agree.enter {free callees names others : Set String} {s t : State}
    {e e' : Environment} (h : State.Agree free callees names s t) (hframe : e.AgreeOn others e') :
    State.Agree free callees others { s with environment := e, depth := s.depth + 1 }
      { t with environment := e', depth := t.depth + 1 } := by
  refine ⟨hframe, h.functions, h.confined, ?_⟩
  show s.depth + 1 = t.depth + 1
  rw [h.depth]

/-- Behind the bodies the callers agree on as much as in front of them. -/
theorem State.Agree.leave {free callees names others : Set String} {s t s' t' : State}
    (h : State.Agree free callees names s t) (hbody : State.Agree free callees others s' t') :
    State.Agree free callees names
      { s' with environment := s.environment, depth := s'.depth - 1 }
      { t' with environment := t.environment, depth := t'.depth - 1 } := by
  refine ⟨h.environment, hbody.functions, hbody.confined, ?_⟩
  show s'.depth - 1 = t'.depth - 1
  rw [hbody.depth]

namespace Action

variable {α : Type} {waived : Halt → Prop} {free callees names : Set String}

theorem alike_environment_bind {f g : Environment → Action α}
    (h : ∀ e e', e.AgreeOn names e' → Alike waived (State.Agree free callees names) (f e) (g e')) :
    Alike waived (State.Agree free callees names) (environment >>= f) (environment >>= g) :=
  fun s t hst => h _ _ hst.environment s t hst

theorem alike_functions_bind {f g : FunctionTable → Action α}
    (h : ∀ functions : FunctionTable, functions.ConfinedTo free callees →
      Alike waived (State.Agree free callees names) (f functions) (g functions)) :
    Alike waived (State.Agree free callees names) (functions >>= f) (functions >>= g) := by
  intro s t hst
  rw [perform_functions_bind, perform_functions_bind, ← hst.functions]
  exact h _ hst.confined s t hst

theorem alike_depth_bind {f g : Nat → Action α}
    (h : ∀ depth, Alike waived (State.Agree free callees names) (f depth) (g depth)) :
    Alike waived (State.Agree free callees names) (depth >>= f) (depth >>= g) := by
  intro s t hst
  rw [perform_depth_bind, perform_depth_bind, ← hst.depth]
  exact h _ s t hst

theorem alike_rebind_bind {e e' : Environment} (he : e.AgreeOn names e') {f g : Unit → Action α}
    (h : Alike waived (State.Agree free callees names) (f ()) (g ())) :
    Alike waived (State.Agree free callees names) (rebind e >>= f) (rebind e' >>= g) :=
  fun _ _ hst => h _ _ ⟨he, hst.functions, hst.confined, hst.depth⟩

theorem alike_redefine_bind {functions : FunctionTable}
    (hfunctions : functions.ConfinedTo free callees) {f g : Unit → Action α}
    (h : Alike waived (State.Agree free callees names) (f ()) (g ())) :
    Alike waived (State.Agree free callees names) (redefine functions >>= f)
      (redefine functions >>= g) :=
  fun _ _ hst => h _ _ ⟨hst.environment, rfl, hfunctions, hst.depth⟩

end Action

/-! ## Expressions -/

section Runs

variable {waived : Halt → Prop} {free callees names : Set String}

theorem Builtin.alike_call {R : State → State → Prop} (builtin : Builtin) (args : List Value)
    (p : Position) : Action.Alike waived R (builtin.call args p) (builtin.call args p) := by
  have read : Action.Alike waived R (Builtin.readValue p) (Builtin.readValue p) :=
    (Action.alike_readLine p).bind fun line => by cases line <;> exact Action.alike_pure _
  unfold Builtin.call
  split
  · exact (Action.alike_write _ p).bind fun _ => Action.alike_pure _
  · exact (Action.alike_write _ p).bind fun _ => Action.alike_pure _
  · exact read
  · exact (Action.alike_write _ p).bind fun _ => read
  · exact Action.alike_check _
  · exact Action.alike_pure _
  · exact Action.alike_fail _

/-- The functions that may be called run alike from states that agree. -/
def Calling.Alike (waived : Halt → Prop) (free callees names : Set String) (call call' : Calling) :
    Prop :=
  ∀ name ∈ callees, ∀ args p,
    Action.Alike waived (State.Agree free callees names) (call name args p) (call' name args p)

variable {call call' : Calling}

mutual

theorem Expr.alike_eval (hcall : Calling.Alike waived free callees names call call') :
    ∀ expr : Expr, expr.ConfinedTo names callees →
      Action.Alike waived (State.Agree free callees names) (expr.eval call) (expr.eval call')
  | .literal _ _, _ => Action.alike_pure _
  | .var name p, h => by
    refine Action.alike_environment_bind fun e e' hagree => ?_
    rw [hagree name h]
    cases e'.get? name with
    | none => exact Action.alike_fail _
    | some binding => exact Action.alike_pure _
  | .not operand _, h => (operand.alike_eval hcall h).bind fun _ => Action.alike_pure _
  | .binary left _ right _, h =>
    (left.alike_eval hcall h.1).bind fun _ =>
      (right.alike_eval hcall h.2).bind fun _ => Action.alike_check _
  | .call callee arguments p, h =>
    (Expr.alike_evalAll hcall arguments h.2).bind fun args => hcall callee h.1 args p
  | .array elements _, h => (Expr.alike_evalAll hcall elements h).bind fun _ => Action.alike_pure _
  | .object fields _, h => (Expr.alike_evalFields hcall fields h).bind fun _ => Action.alike_pure _
  | .index target selector _, h =>
    (target.alike_eval hcall h.1).bind fun _ =>
      (selector.alike_eval hcall h.2).bind fun _ => Action.alike_check _
  | .member target _ _, h => (target.alike_eval hcall h).bind fun _ => Action.alike_check _

theorem Expr.alike_evalAll (hcall : Calling.Alike waived free callees names call call') :
    ∀ exprs : List Expr, Expr.AllConfinedTo names callees exprs →
      Action.Alike waived (State.Agree free callees names) (Expr.evalAll call exprs)
        (Expr.evalAll call' exprs)
  | [], _ => Action.alike_pure _
  | expr :: exprs, h =>
    (expr.alike_eval hcall h.1).bind fun _ =>
      (Expr.alike_evalAll hcall exprs h.2).bind fun _ => Action.alike_pure _

theorem Expr.alike_evalFields (hcall : Calling.Alike waived free callees names call call') :
    ∀ fields : List (String × Expr), Expr.FieldsConfinedTo names callees fields →
      Action.Alike waived (State.Agree free callees names) (Expr.evalFields call fields)
        (Expr.evalFields call' fields)
  | [], _ => Action.alike_pure _
  | (_, expr) :: fields, h =>
    (expr.alike_eval hcall h.1).bind fun _ =>
      (Expr.alike_evalFields hcall fields h.2).bind fun _ => Action.alike_pure _

end

/-! ## Statements -/

/-- Writing a name in environments that agree on it. -/
theorem alike_declare {name : String} (hname : name ∈ names) (value : Value) (kind : Mutability)
    (p : Position) :
    let action : Action Flow := do
      let environment ← Action.check ((← Action.environment).declare name value kind p)
      Action.rebind environment
      pure .normal
    Action.Alike waived (State.Agree free callees names) action action := by
  refine Action.alike_environment_bind fun e e' hagree => ?_
  refine Action.alike_check_bind (hagree.declare hname value kind p) fun e e' hagree => ?_
  exact Action.alike_rebind_bind hagree (Action.alike_pure _)

theorem FunctionTable.ConfinedTo.declare {functions functions' : FunctionTable}
    {definition : Function} (h : functions.ConfinedTo free callees)
    (hdefinition : definition.ConfinedTo free callees)
    (hdeclare : functions.declare definition = .ok functions') :
    functions'.ConfinedTo free callees := by
  rw [eq_insert_of_declare hdeclare]
  intro name hname f hf
  rw [find?_insert] at hf
  split at hf
  · cases hf
    exact hdefinition
  · exact h name hname f hf

theorem alike_define {definition : Function} (hdefinition : definition.ConfinedTo free callees) :
    let action : Action Flow := do
      let functions ← Action.check ((← Action.functions).declare definition)
      Action.redefine functions
      pure .normal
    Action.Alike waived (State.Agree free callees names) action action := by
  refine Action.alike_functions_bind fun functions hfunctions => ?_
  cases hdeclare : functions.declare definition with
  | error cause => exact fun s t hst => .done ⟨rfl, hst⟩
  | ok functions' =>
    rw [Action.check_ok, pure_bind]
    exact Action.alike_redefine_bind (hfunctions.declare hdefinition hdeclare)
      (Action.alike_pure _)

theorem Flow.alike_andThen {R : State → State → Prop} {first first' second second' : Action Flow}
    (hfirst : Action.Alike waived R first first') (hsecond : Action.Alike waived R second second') :
    Action.Alike waived R (Flow.andThen first second) (Flow.andThen first' second') := by
  refine hfirst.bind fun flow => ?_
  cases flow with
  | normal => exact hsecond
  | returned value p => exact Action.alike_pure _

theorem Flow.alike_repeatWhile {R : State → State → Prop} {condition condition' : Action Value}
    {body body' : Action Flow} (hcondition : Action.Alike waived R condition condition')
    (hbody : Action.Alike waived R body body') {rounds rounds' : Nat}
    (hrounds : Action.Raised (waived .exhausted) rounds rounds') :
    Action.Alike waived R (Flow.repeatWhile rounds condition body)
      (Flow.repeatWhile rounds' condition' body') := by
  refine Action.Alike.loop (hcondition.bind fun value => ?_) hrounds
  split
  · refine hbody.bind fun flow => ?_
    cases flow with
    | normal => exact Action.alike_pure _
    | returned value p => exact Action.alike_pure _
  · exact Action.alike_pure _

/-- The check in front of an assignment. -/
theorem alike_checkTarget {config config' : Config} (hconfig : config.Relaxed waived config')
    {name : String} (hname : name ∈ names) (p : Position) :
    Action.Alike waived (State.Agree free callees names)
      (do Action.check ((← Action.environment).checkTarget config.assignment name p))
      (do Action.check ((← Action.environment).checkTarget config'.assignment name p)) := by
  refine Action.alike_environment_bind fun e e' hagree => ?_
  unfold Environment.checkTarget Environment.ensureWritable
  rw [hagree name hname]
  rcases hconfig.assignment with hsame | ⟨hreject, hwaived⟩
  · rw [hsame]
    exact Action.alike_check _
  · cases e'.get? name with
    | none =>
      rw [if_pos ⟨hreject, rfl⟩]
      exact Action.alike_fail_of_waived (hwaived name p) _
    | some binding =>
      rw [if_neg (by simp), if_neg (by simp)]
      exact Action.alike_check _

/-- The second context demands no more than the first, and calls run alike in both. -/
structure Context.Alike (waived : Halt → Prop) (free callees names : Set String)
    (ctx ctx' : Context) : Prop where
  config : ctx.config.Relaxed waived ctx'.config
  rounds : Action.Raised (waived .exhausted) ctx.rounds ctx'.rounds
  call : Calling.Alike waived free callees names ctx.call ctx'.call

variable {ctx ctx' : Context}

mutual

theorem Statement.alike_run (hctx : Context.Alike waived free callees names ctx ctx') :
    ∀ statement : Statement, statement.ConfinedTo free callees names →
      Action.Alike waived (State.Agree free callees names) (statement.run ctx)
        (statement.run ctx')
  | .declaration kind name _ init p, h =>
    (init.alike_eval hctx.call h.2).bind fun value =>
      (Action.alike_check _).bind fun _ => alike_declare h.1 value kind p
  | .assignment name expr p, h => by
    have htarget := (alike_checkTarget hctx.config h.1 p).bind fun _ =>
      (expr.alike_eval hctx.call h.2).bind fun value => alike_declare h.1 value .var p
    rw [bind_assoc, bind_assoc] at htarget
    exact htarget
  | .function _, h => alike_define h
  | .returnValue expr _, h => (expr.alike_eval hctx.call h).bind fun _ => Action.alike_pure _
  | .expression expr _, h => (expr.alike_eval hctx.call h).bind fun _ => Action.alike_pure _
  | .conditional branches otherwise _, h => by
    refine (Statement.alike_runBranches hctx branches h.1).bind fun flow => ?_
    cases flow with
    | none => exact Statement.alike_runOtherwise hctx otherwise h.2
    | some flow => exact Action.alike_pure _
  | .whileLoop condition body _, h =>
    Flow.alike_repeatWhile (condition.alike_eval hctx.call h.1)
      (Statement.alike_runAll hctx body h.2) hctx.rounds
  | .forLoop init condition update body _, h =>
    Flow.alike_andThen (init.alike_run hctx h.1)
      (Flow.alike_repeatWhile (condition.alike_eval hctx.call h.2.1)
        (Flow.alike_andThen (Statement.alike_runAll hctx body h.2.2.2)
          (update.alike_run hctx h.2.2.1)) hctx.rounds)

theorem Statement.alike_runAll (hctx : Context.Alike waived free callees names ctx ctx') :
    ∀ statements : List Statement, Statement.AllConfinedTo free callees names statements →
      Action.Alike waived (State.Agree free callees names) (Statement.runAll ctx statements)
        (Statement.runAll ctx' statements)
  | [], _ => Action.alike_pure _
  | statement :: statements, h =>
    Flow.alike_andThen (statement.alike_run hctx h.1) (Statement.alike_runAll hctx statements h.2)

theorem Statement.alike_runBranches (hctx : Context.Alike waived free callees names ctx ctx') :
    ∀ branches : List Branch, Statement.BranchesConfinedTo free callees names branches →
      Action.Alike waived (State.Agree free callees names) (Statement.runBranches ctx branches)
        (Statement.runBranches ctx' branches)
  | [], _ => Action.alike_pure _
  | ⟨condition, body⟩ :: branches, h => by
    refine (condition.alike_eval hctx.call h.1).bind fun value => ?_
    split
    · exact (Statement.alike_runAll hctx body h.2.1).bind fun _ => Action.alike_pure _
    · exact Statement.alike_runBranches hctx branches h.2.2

theorem Statement.alike_runOtherwise (hctx : Context.Alike waived free callees names ctx ctx') :
    ∀ otherwise : Option (List Statement),
      Statement.OtherwiseConfinedTo free callees names otherwise →
      Action.Alike waived (State.Agree free callees names) (Statement.runOtherwise ctx otherwise)
        (Statement.runOtherwise ctx' otherwise)
  | none, _ => Action.alike_pure _
  | some body, h => Statement.alike_runAll hctx body h

end

/-! ## Calls -/

theorem Function.alike_run {f : Function} (hf : f.ConfinedTo free callees)
    (hctx : Context.Alike waived free callees (free ∪ Parameter.names f.params) ctx ctx')
    {e e' : Environment} (he : e.AgreeOn (free ∪ Parameter.names f.params) e') (p : Position) :
    Action.Alike waived (State.Agree free callees names) (f.run ctx e p) (f.run ctx' e' p) := by
  have hbody := Statement.alike_runAll hctx f.body hf.body
  have hrun := hbody.within e e' (fun _ _ h => State.Agree.enter h he)
    fun _ _ _ _ (h : State.Agree free callees names _ _) => h.leave
  exact hrun.bind fun _ => (Action.alike_check _).bind fun _ => Action.alike_pure _

theorem Calling.alike_dispatch {config config' : Config} (hconfig : config.Relaxed waived config')
    {body body' : Function → Environment → Position → Action Value}
    (hbody : ∀ f : Function, f.ConfinedTo free callees → ∀ e e' p,
      e.AgreeOn (names ∪ Parameter.names f.params) e' →
      Action.Alike waived (State.Agree free callees names) (body f e p) (body' f e' p)) :
    Calling.Alike waived free callees names (.dispatch config body) (.dispatch config' body') := by
  intro name hname args p
  unfold Calling.dispatch
  split
  · exact Builtin.alike_call _ args p
  · refine Action.alike_functions_bind fun functions hfunctions => ?_
    split
    · exact Action.alike_fail _
    · rename_i f hf
      refine Action.alike_environment_bind fun e e' hagree => ?_
      refine Action.alike_check_bind (f.frame_agree args p hagree) fun e e' hagree => ?_
      refine Action.alike_depth_bind fun depth => ?_
      exact hconfig.alike_limited name p depth (hbody f (hfunctions name hname f hf) e e' p hagree)

/--
Calls functions like `invoke`, when `nesting` more calls of declared functions may be nested. A call
beyond these does what `beyond` says.
-/
def Calling.nested (config : Config) (rounds : Nat) (beyond : Function → Position → Action Value) :
    Nat → Calling
  | 0 => .dispatch config fun f _ p => beyond f p
  | nesting + 1 => .dispatch config fun f frame p =>
    f.run ⟨config, rounds, nested config rounds beyond nesting⟩ frame p

/-- What `invoke` does beyond the last call that may be nested. -/
def Calling.overflow (config : Config) (f : Function) (p : Position) : Action Value :=
  Action.fail (.stackOverflow f.name config.maxCallDepth p)

theorem invoke_eq_nested (config : Config) (rounds calls : Nat) :
    invoke config rounds calls = Calling.nested config rounds (Calling.overflow config) calls := by
  induction calls with
  | zero => rfl
  | succ calls ih => rw [invoke, Calling.nested, ih]

/--
Calls run alike from states that agree on the names that are free in functions. In a body the states
agree on the parameters besides, and behind it on what they agreed on in front of the call. Where
the second run may nest more calls than the first, what the first does beyond these is waived.
-/
theorem Calling.alike_nested {config config' : Config} (hconfig : config.Relaxed waived config')
    {rounds rounds' : Nat} (hrounds : Action.Raised (waived .exhausted) rounds rounds')
    {beyond beyond' : Function → Position → Action Value} {nesting nesting' : Nat}
    (hle : nesting ≤ nesting')
    (hbeyond : ∀ R f p, Action.Alike waived R (beyond f p) (beyond' f p))
    (hwaived : nesting < nesting' → ∀ R f p other, Action.Alike waived R (beyond f p) other)
    (hnames : free ⊆ names) :
    Calling.Alike waived free callees names (.nested config rounds beyond nesting)
      (.nested config' rounds' beyond' nesting') := by
  induction nesting generalizing nesting' names with
  | zero =>
    cases nesting' with
    | zero => exact alike_dispatch hconfig fun f _ _ _ p _ => hbeyond _ f p
    | succ nesting' =>
      have hzero := hwaived (by omega)
      exact alike_dispatch hconfig fun f _ _ _ p _ => hzero _ f p _
  | succ nesting ih =>
    cases nesting' with
    | zero => exact absurd hle (by omega)
    | succ nesting' =>
      have hle : nesting ≤ nesting' := by omega
      have hwaived : nesting < nesting' → _ := fun hlt => hwaived (by omega)
      refine alike_dispatch hconfig fun f hf e e' p hagree => ?_
      have hparams : free ⊆ free ∪ Parameter.names f.params := Set.subset_union_left
      have hframe : e.AgreeOn (free ∪ Parameter.names f.params) e' :=
        fun name hname => hagree name (Set.union_subset_union_left _ hnames hname)
      exact f.alike_run hf ⟨hconfig, hrounds, ih hle hwaived hparams⟩ hframe p

theorem alike_invoke {config config' : Config} (hconfig : config.Relaxed waived config')
    {rounds rounds' : Nat} (hrounds : Action.Raised (waived .exhausted) rounds rounds')
    {calls calls' : Nat}
    (hcalls : Action.Raised
      (∀ name p, waived (.error (.runtime (.stackOverflow name config.maxCallDepth p))))
      calls calls')
    (hnames : free ⊆ names) :
    Calling.Alike waived free callees names (invoke config rounds calls)
      (invoke config' rounds' calls') := by
  rw [invoke_eq_nested, invoke_eq_nested]
  refine Calling.alike_nested hconfig hrounds hcalls.le ?_ ?_ hnames
  · exact fun R f p => hconfig.alike_stackOverflow f.name p
  · exact fun hlt R f p => Action.alike_fail_of_waived (hcalls.waived_of_lt hlt f.name p)

end Runs

end Arrow
