import Arrow.Evaluation.Program
import Arrow.Proofs.Action.Corresponds

/-!
# Runs that correspond

What an expression or a call does depends on no position: moved copies of it correspond as actions
(`Expr.corresponds_eval`, `Calling.corresponds_dispatch`). How the statements of a program
correspond is left to a parameter, the relation of functions, so that calls do as soon as the runs
of related functions do (`corresponds_invoke`).
-/

namespace Arrow

/-! ## Checks -/

section

variable {R : Position → Position → Prop} {p q : Position}

namespace Value

theorem arithmetic_moved (op : Operator) (left right : Value) (hp : R p q) :
    Matched (RuntimeError.Moved R) Eq (arithmetic op left right p)
      (arithmetic op left right q) := by
  unfold arithmetic
  split
  · exact .ok rfl
  · split
    · split
      · exact .ok rfl
      · exact .ok rfl
      · exact .error ⟨fun _ => rfl, .some hp⟩
    · exact .error ⟨fun _ => rfl, .some hp⟩

theorem comparison_moved (op : Operator) (left right : Value) (hp : R p q) :
    Matched (RuntimeError.Moved R) Eq (comparison op left right p)
      (comparison op left right q) := by
  unfold comparison
  cases op
  case equal | notEqual | greater | less | greaterEqual | lessEqual => exact .ok rfl
  all_goals exact .error ⟨fun _ => rfl, .some hp⟩

theorem logic_moved (op : Operator) (left right : Value) (hp : R p q) :
    Matched (RuntimeError.Moved R) Eq (logic op left right p) (logic op left right q) := by
  unfold logic
  cases op
  case and | or => exact .ok rfl
  all_goals exact .error ⟨fun _ => rfl, .some hp⟩

theorem binary_moved (op : Operator) (left right : Value) (hp : R p q) :
    Matched (RuntimeError.Moved R) Eq (binary op left right p) (binary op left right q) := by
  unfold binary
  cases op
  case add | sub | mul | div => exact arithmetic_moved _ left right hp
  case and | or => exact logic_moved _ left right hp
  case assign | typeOpen | typeClose | not => exact .error ⟨fun _ => rfl, .some hp⟩
  all_goals exact comparison_moved _ left right hp

theorem member_moved (target : Value) (property : String) (hp : R p q) :
    Matched (RuntimeError.Moved R) Eq (member target property p) (member target property q) := by
  unfold member
  dsimp only
  split
  · exact .ok rfl
  · exact .error ⟨fun _ => rfl, .some hp⟩

theorem select_moved {α : Type} (things : List α) (index : Integer) (hp : R p q) :
    Matched (RuntimeError.Moved R) Eq (select things index p) (select things index q) := by
  unfold select
  split
  · exact .ok rfl
  · exact .error ⟨fun _ => rfl, .some hp⟩

theorem index_moved (target selector : Value) (hp : R p q) :
    Matched (RuntimeError.Moved R) Eq (index target selector p) (index target selector q) := by
  unfold index
  split
  · exact select_moved _ _ hp
  · exact (select_moved _ _ hp).map fun h => congrArg (fun c => text (String.ofList [c])) h
  · exact member_moved _ _ hp
  · exact .error ⟨fun _ => rfl, .some hp⟩

theorem len_moved (value : Value) (hp : R p q) :
    Matched (RuntimeError.Moved R) Eq (len value p) (len value q) := by
  unfold len
  split
  · exact .ok rfl
  · exact .error ⟨fun _ => rfl, .some hp⟩

end Value

theorem DeclaredType.check_moved {type type' : DeclaredType} (htype : type.Moved R type')
    (value : Value) (subject : String) (hp : R p q) :
    Matched (RuntimeError.Moved R) Eq (type.check value subject p)
      (type'.check value subject q) := by
  unfold check
  rw [htype.name]
  split
  · exact .error ⟨fun _ => rfl, .some htype.position⟩
  · split
    · exact .ok rfl
    · exact .error ⟨fun _ => rfl, .some hp⟩

theorem checkDeclared_moved {type type' : Option DeclaredType}
    (htype : Option.Rel (DeclaredType.Moved R) type type') (value : Value) (subject : String)
    (hp : R p q) :
    Matched (RuntimeError.Moved R) Eq (checkDeclared type value subject p)
      (checkDeclared type' value subject q) := by
  cases htype with
  | none => exact .ok rfl
  | some htype => exact DeclaredType.check_moved htype value subject hp

namespace Environment

theorem ensureWritable_moved (env : Environment) (name : String) (hp : R p q) :
    Matched (RuntimeError.Moved R) Eq (env.ensureWritable name p) (env.ensureWritable name q) := by
  unfold ensureWritable
  split
  · exact .error ⟨fun _ => rfl, .some hp⟩
  · exact .ok rfl

theorem declare_moved (env : Environment) (name : String) (value : Value) (kind : Mutability)
    (hp : R p q) :
    Matched (RuntimeError.Moved R) Eq (env.declare name value kind p)
      (env.declare name value kind q) :=
  (env.ensureWritable_moved name hp).map fun _ => rfl

theorem checkTarget_moved (env : Environment) (mode : AssignmentMode) (name : String)
    (hp : R p q) :
    Matched (RuntimeError.Moved R) Eq (env.checkTarget mode name p)
      (env.checkTarget mode name q) := by
  unfold checkTarget
  split
  · exact .error ⟨fun _ => rfl, .some hp⟩
  · exact env.ensureWritable_moved name hp

end Environment

theorem Function.overlayAll_moved (callee : String) {params params' : List Parameter}
    (hparams : List.Forall₂ (Parameter.Moved R) params params') (args : List Value)
    (env : Environment) (hp : R p q) :
    Matched (RuntimeError.Moved R) Eq (overlayAll callee p params args env)
      (overlayAll callee q params' args env) := by
  induction hparams generalizing args env with
  | nil => exact .ok rfl
  | @cons param param' _ _ hparam _ ih =>
    cases args with
    | nil => exact .ok rfl
    | cons arg args =>
      unfold overlayAll
      rw [hparam.name, hparam.mutability]
      exact (checkDeclared_moved hparam.type arg _ hp).bind fun _ => ih args _

theorem Function.frame_moved {f g : Function} (h : f.HeaderMoved R g) (args : List Value)
    (env : Environment) (hp : R p q) :
    Matched (RuntimeError.Moved R) Eq (f.frame args p env) (g.frame args q env) := by
  unfold frame
  rw [h.name, h.params.length_eq]
  split
  · exact overlayAll_moved g.name h.params args env hp
  · exact .error ⟨fun _ => rfl, .some hp⟩

end

variable {C : Correspondence} {p q : Position}

theorem FunctionTable.Corresponds.declare {functions others : FunctionTable}
    (h : functions.Corresponds C others) {f g : Function} (hf : C.functions f g) :
    Matched (RuntimeError.Moved C.positions) (FunctionTable.Corresponds C) (functions.declare f)
      (others.declare g) := by
  have hheader := C.header hf
  unfold FunctionTable.declare
  rw [hheader.name, optionRel_isSome (h.find? g.name)]
  split
  · exact .error ⟨fun _ => rfl, .some hheader.position⟩
  · split
    · exact .error ⟨fun _ => rfl, .some hheader.position⟩
    · exact .ok (.cons hf h)

/-! ## Expressions -/

/-- The functions that may be called do the same, whatever the positions of the calls. -/
def Calling.Corresponds (C : Correspondence) (call call' : Calling) : Prop :=
  ∀ name args p q, C.positions p q → Action.Corresponds C Eq (call name args p) (call' name args q)

variable {call call' : Calling}

mutual

theorem Expr.corresponds_eval (hcall : Calling.Corresponds C call call') :
    ∀ {expr expr' : Expr}, expr.Moved C.positions expr' →
      Action.Corresponds C Eq (expr.eval call) (expr'.eval call')
  | _, _, .literal _ => Action.corresponds_pure rfl
  | .var name _, _, .var hp => by
    refine Action.corresponds_environment.bind ?_
    rintro env _ rfl
    cases env.get? name with
    | some binding => exact Action.corresponds_pure rfl
    | none => exact Action.corresponds_fail ⟨fun _ => rfl, .some hp⟩
  | _, _, .not h _ =>
    (Expr.corresponds_eval hcall h).bind fun _ _ hvalue =>
      Action.corresponds_pure (congrArg _ hvalue)
  | .binary _ op _ _, _, .binary hleft hright hp => by
    refine (Expr.corresponds_eval hcall hleft).bind ?_
    rintro a _ rfl
    refine (Expr.corresponds_eval hcall hright).bind ?_
    rintro b _ rfl
    exact Action.corresponds_check (Value.binary_moved op a b hp)
  | .call callee _ _, _, .call h hp => by
    refine (Expr.corresponds_evalAll hcall h).bind ?_
    rintro args _ rfl
    exact hcall callee args _ _ hp
  | _, _, .array h _ =>
    (Expr.corresponds_evalAll hcall h).bind fun _ _ hvalues =>
      Action.corresponds_pure (congrArg _ hvalues)
  | _, _, .object h _ =>
    (Expr.corresponds_evalFields hcall h).bind fun _ _ hvalues =>
      Action.corresponds_pure (congrArg _ hvalues)
  | _, _, .index htarget hselector hp => by
    refine (Expr.corresponds_eval hcall htarget).bind ?_
    rintro a _ rfl
    refine (Expr.corresponds_eval hcall hselector).bind ?_
    rintro i _ rfl
    exact Action.corresponds_check (Value.index_moved a i hp)
  | .member _ property _, _, .member h hp => by
    refine (Expr.corresponds_eval hcall h).bind ?_
    rintro a _ rfl
    exact Action.corresponds_check (Value.member_moved a property hp)

theorem Expr.corresponds_evalAll (hcall : Calling.Corresponds C call call') :
    ∀ {exprs exprs' : List Expr}, Expr.AllMoved C.positions exprs exprs' →
      Action.Corresponds C Eq (Expr.evalAll call exprs) (Expr.evalAll call' exprs')
  | _, _, .nil => Action.corresponds_pure rfl
  | _, _, .cons h hrest => by
    refine (Expr.corresponds_eval hcall h).bind ?_
    rintro value _ rfl
    refine (Expr.corresponds_evalAll hcall hrest).bind ?_
    rintro values _ rfl
    exact Action.corresponds_pure rfl

theorem Expr.corresponds_evalFields (hcall : Calling.Corresponds C call call') :
    ∀ {fields fields' : List (String × Expr)}, Expr.FieldsMoved C.positions fields fields' →
      Action.Corresponds C Eq (Expr.evalFields call fields) (Expr.evalFields call' fields')
  | _, _, .nil => Action.corresponds_pure rfl
  | _, _, .cons h hrest => by
    refine (Expr.corresponds_eval hcall h).bind ?_
    rintro value _ rfl
    refine (Expr.corresponds_evalFields hcall hrest).bind ?_
    rintro values _ rfl
    exact Action.corresponds_pure rfl

end

/-! ## Sequences and loops -/

inductive Flow.Moved (R : Position → Position → Prop) : Flow → Flow → Prop
  | normal : Flow.Moved R .normal .normal
  | returned {value : Value} {p q : Position} (hp : R p q) :
    Flow.Moved R (.returned value p) (.returned value q)

namespace Flow

theorem Moved.value {flow flow' : Flow} (h : flow.Moved C.positions flow') :
    flow.value = flow'.value := by
  cases h <;> rfl

theorem corresponds_andThen {first first' second second' : Action Flow}
    (hfirst : Action.Corresponds C (Flow.Moved C.positions) first first')
    (hsecond : Action.Corresponds C (Flow.Moved C.positions) second second') :
    Action.Corresponds C (Flow.Moved C.positions) (andThen first second)
      (andThen first' second') := by
  refine hfirst.bind fun flow flow' hflow => ?_
  cases hflow with
  | normal => exact hsecond
  | returned hp => exact Action.corresponds_pure (.returned hp)

theorem corresponds_repeatWhile {condition condition' : Action Value} {body body' : Action Flow}
    (hcondition : Action.Corresponds C Eq condition condition')
    (hbody : Action.Corresponds C (Flow.Moved C.positions) body body') (rounds : Nat) :
    Action.Corresponds C (Flow.Moved C.positions) (repeatWhile rounds condition body)
      (repeatWhile rounds condition' body') := by
  refine Action.Corresponds.loop (hcondition.bind ?_) rounds
  rintro value _ rfl
  split
  · refine hbody.bind fun flow flow' hflow => ?_
    cases hflow with
    | normal => exact Action.corresponds_pure .none
    | returned hp => exact Action.corresponds_pure (.some (.returned hp))
  · exact Action.corresponds_pure (.some .normal)

end Flow

/-! ## Statements -/

/-- The contexts differ only in calls that correspond. -/
structure Context.Corresponds (C : Correspondence) (ctx ctx' : Context) : Prop where
  config : ctx.config = ctx'.config
  rounds : ctx.rounds = ctx'.rounds
  call : Calling.Corresponds C ctx.call ctx'.call

namespace Statement

variable {ctx ctx' : Context}

theorem corresponds_bind_declare (name : String) (value : Value) (kind : Mutability)
    (hp : C.positions p q) :
    Action.Corresponds C (Flow.Moved C.positions)
      (do
        let environment ← Action.check ((← Action.environment).declare name value kind p)
        Action.rebind environment
        return .normal)
      (do
        let environment ← Action.check ((← Action.environment).declare name value kind q)
        Action.rebind environment
        return .normal) := by
  refine Action.corresponds_environment.bind ?_
  rintro env _ rfl
  refine (Action.corresponds_check (env.declare_moved name value kind hp)).bind ?_
  rintro env _ rfl
  exact (Action.corresponds_rebind env).bind fun _ _ _ => Action.corresponds_pure .normal

theorem corresponds_declaration (hctx : Context.Corresponds C ctx ctx') {kind : Mutability}
    {name : String} {type type' : Option DeclaredType} {init init' : Expr}
    (htype : Option.Rel (DeclaredType.Moved C.positions) type type')
    (hinit : init.Moved C.positions init') (hp : C.positions p q) :
    Action.Corresponds C (Flow.Moved C.positions) ((declaration kind name type init p).run ctx)
      ((declaration kind name type' init' q).run ctx') := by
  refine (Expr.corresponds_eval hctx.call hinit).bind ?_
  rintro value _ rfl
  exact (Action.corresponds_check (checkDeclared_moved htype value _ hp)).bind fun _ _ _ =>
    corresponds_bind_declare name value kind hp

theorem corresponds_assignment (hctx : Context.Corresponds C ctx ctx') {name : String}
    {expr expr' : Expr} (hexpr : expr.Moved C.positions expr') (hp : C.positions p q) :
    Action.Corresponds C (Flow.Moved C.positions) ((assignment name expr p).run ctx)
      ((assignment name expr' q).run ctx') := by
  refine Action.corresponds_environment.bind ?_
  rintro env _ rfl
  rw [← hctx.config]
  refine (Action.corresponds_check (env.checkTarget_moved _ name hp)).bind fun _ _ _ => ?_
  refine (Expr.corresponds_eval hctx.call hexpr).bind ?_
  rintro value _ rfl
  exact corresponds_bind_declare name value .var hp

theorem corresponds_function {f g : Function} (h : C.functions f g) :
    Action.Corresponds C (Flow.Moved C.positions) ((function f).run ctx)
      ((function g).run ctx') := by
  refine Action.corresponds_functions.bind fun functions others hfunctions => ?_
  have hdeclare := Action.corresponds_check (hfunctions.declare h)
  refine hdeclare.bind fun functions others hfunctions => ?_
  exact (Action.corresponds_redefine hfunctions).bind fun _ _ _ => Action.corresponds_pure .normal

theorem corresponds_returnValue (hctx : Context.Corresponds C ctx ctx') {expr expr' : Expr}
    (hexpr : expr.Moved C.positions expr') (hp : C.positions p q) :
    Action.Corresponds C (Flow.Moved C.positions) ((returnValue expr p).run ctx)
      ((returnValue expr' q).run ctx') := by
  refine (Expr.corresponds_eval hctx.call hexpr).bind ?_
  rintro value _ rfl
  exact Action.corresponds_pure (.returned hp)

theorem corresponds_expression (hctx : Context.Corresponds C ctx ctx') {expr expr' : Expr}
    (hexpr : expr.Moved C.positions expr') :
    Action.Corresponds C (Flow.Moved C.positions) ((expression expr p).run ctx)
      ((expression expr' q).run ctx') :=
  (Expr.corresponds_eval hctx.call hexpr).bind fun _ _ _ => Action.corresponds_pure .normal

theorem corresponds_whileLoop (hctx : Context.Corresponds C ctx ctx') {condition condition' : Expr}
    (hcondition : condition.Moved C.positions condition') {body body' : List Statement}
    (hbody : Action.Corresponds C (Flow.Moved C.positions) (runAll ctx body)
      (runAll ctx' body')) :
    Action.Corresponds C (Flow.Moved C.positions) ((whileLoop condition body p).run ctx)
      ((whileLoop condition' body' q).run ctx') := by
  change Action.Corresponds C _ (Flow.repeatWhile ctx.rounds _ _)
    (Flow.repeatWhile ctx'.rounds _ _)
  rw [← hctx.rounds]
  exact Flow.corresponds_repeatWhile (Expr.corresponds_eval hctx.call hcondition) hbody _

end Statement

/-! ## Calls -/

theorem Builtin.corresponds_readValue (hp : C.positions p q) :
    Action.Corresponds C Eq (readValue p) (readValue q) := by
  refine (Action.corresponds_readLine hp).bind ?_
  rintro line _ rfl
  cases line <;> exact Action.corresponds_pure rfl

theorem Builtin.corresponds_call (builtin : Builtin) (args : List Value) (hp : C.positions p q) :
    Action.Corresponds C Eq (builtin.call args p) (builtin.call args q) := by
  unfold Builtin.call
  split
  · exact (Action.corresponds_write _ hp).bind fun _ _ _ => Action.corresponds_pure rfl
  · exact (Action.corresponds_write _ hp).bind fun _ _ _ => Action.corresponds_pure rfl
  · exact corresponds_readValue hp
  · exact (Action.corresponds_write _ hp).bind fun _ _ _ => corresponds_readValue hp
  · exact Action.corresponds_check (Value.len_moved _ hp)
  · exact Action.corresponds_pure rfl
  · exact Action.corresponds_fail ⟨fun _ => rfl, .some hp⟩

theorem Calling.corresponds_dispatch {config : Config}
    {body body' : Function → Environment → Position → Action Value}
    (hbody : ∀ f g, C.functions f g → ∀ frame p q, C.positions p q →
      Action.Corresponds C Eq (body f frame p) (body' g frame q)) :
    Calling.Corresponds C (.dispatch config body) (.dispatch config body') := by
  intro name args p q hp
  unfold dispatch
  split
  · exact Builtin.corresponds_call _ args hp
  · refine Action.corresponds_functions.bind fun functions others hfunctions => ?_
    have hfind := hfunctions.find? name
    generalize functions.find? name = f?, others.find? name = g? at hfind ⊢
    cases hfind with
    | none => exact Action.corresponds_fail ⟨fun _ => rfl, .some hp⟩
    | @some f g hf =>
      refine Action.corresponds_environment.bind ?_
      rintro env _ rfl
      refine (Action.corresponds_check (Function.frame_moved (C.header hf) args env hp)).bind ?_
      rintro frame _ rfl
      refine Action.corresponds_depth.bind ?_
      rintro depth _ rfl
      split
      · exact Action.corresponds_fail ⟨fun _ => rfl, .some hp⟩
      · exact hbody f g hf frame p q hp

theorem Function.corresponds_run {f g : Function} (h : f.HeaderMoved C.positions g)
    {ctx ctx' : Context} (hbody : Action.Corresponds C (Flow.Moved C.positions)
      (Statement.runAll ctx f.body) (Statement.runAll ctx' g.body))
    (frame : Environment) (hp : C.positions p q) :
    Action.Corresponds C Eq (f.run ctx frame p) (g.run ctx' frame q) := by
  refine (hbody.within frame).bind fun flow flow' hflow => ?_
  rw [hflow.value, h.name]
  exact (Action.corresponds_check (checkDeclared_moved h.returnType _ _ hp)).bind fun _ _ _ =>
    Action.corresponds_pure rfl

/--
Calls correspond if, in contexts that do so, the bodies of corresponding functions do. The induction
is on the number of calls that may be nested.
-/
theorem corresponds_invoke (hbody : ∀ f g, C.functions f g → ∀ ctx ctx',
      Context.Corresponds C ctx ctx' → Action.Corresponds C (Flow.Moved C.positions)
        (Statement.runAll ctx f.body) (Statement.runAll ctx' g.body))
    (config : Config) (rounds calls : Nat) :
    Calling.Corresponds C (invoke config rounds calls) (invoke config rounds calls) := by
  induction calls with
  | zero =>
    refine Calling.corresponds_dispatch fun f g hf _ p q hp => ?_
    rw [(C.header hf).name]
    exact Action.corresponds_fail ⟨fun _ => rfl, .some hp⟩
  | succ calls ih =>
    exact Calling.corresponds_dispatch fun f g hf frame p q hp =>
      Function.corresponds_run (C.header hf) (hbody f g hf _ _ ⟨rfl, rfl, ih⟩) frame hp

/-! ## Programs -/

namespace Program

/-- Outermost statements run like the statements of a body, but must not return. -/
theorem runBody_eq (ctx : Context) (statements : List Statement) :
    runBody ctx statements = Statement.runAll ctx statements >>= fun
      | .normal => pure ()
      | .returned _ p => Action.fail (.returnOutsideFunction p) := by
  induction statements with
  | nil => rfl
  | cons statement statements ih =>
    rw [runBody, Statement.runAll, Flow.andThen, bind_assoc]
    congr 1
    funext flow
    cases flow with
    | normal => exact ih
    | returned value p => rfl

variable {ctx ctx' : Context}

theorem corresponds_runEntryPoint (hctx : Context.Corresponds C ctx ctx') :
    Action.Corresponds C Eq (runEntryPoint ctx) (runEntryPoint ctx') := by
  refine Action.corresponds_functions.bind fun functions others hfunctions => ?_
  have hfind := hfunctions.find? "main"
  generalize functions.find? "main" = main?, others.find? "main" = main?' at hfind ⊢
  cases hfind with
  | @some main main' hmain =>
    have hheader := C.header hmain
    dsimp only
    rw [forall₂_isEmpty hheader.params, hheader.params.length_eq]
    split
    · exact (hctx.call "main" [] _ _ hheader.position).bind fun _ _ _ => Action.corresponds_pure rfl
    · exact Action.corresponds_fail ⟨fun _ => rfl, .none⟩
  | none =>
    have hneeds : needsEntryPoint ctx.config.entryPoint functions =
        needsEntryPoint ctx'.config.entryPoint others := by
      unfold needsEntryPoint
      rw [hctx.config, hfunctions.isEmpty]
    dsimp only
    rw [hneeds]
    split
    · exact Action.corresponds_fail ⟨fun _ => rfl, .none⟩
    · exact Action.corresponds_pure rfl

theorem corresponds_run (hctx : Context.Corresponds C ctx ctx') {program program' : Program}
    (hbody : Action.Corresponds C (Flow.Moved C.positions) (Statement.runAll ctx program.body)
      (Statement.runAll ctx' program'.body)) :
    Action.Corresponds C Eq (program.run ctx) (program'.run ctx') := by
  have houtermost : Action.Corresponds C Eq (runBody ctx program.body)
      (runBody ctx' program'.body) := by
    rw [runBody_eq, runBody_eq]
    refine hbody.bind fun flow flow' hflow => ?_
    cases hflow with
    | normal => exact Action.corresponds_pure rfl
    | returned hp => exact Action.corresponds_fail ⟨fun _ => rfl, .some hp⟩
  exact houtermost.bind fun _ _ _ => (corresponds_runEntryPoint hctx).bind fun _ _ _ =>
    Action.corresponds_environment

end Program

end Arrow
