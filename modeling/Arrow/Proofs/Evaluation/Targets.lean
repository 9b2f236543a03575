import Arrow.Proofs.Action.Yields
import Arrow.Proofs.Evaluation.Atomicity
import Arrow.Proofs.Evaluation.Layout
import Arrow.Proofs.Evaluation.Occurrences

/-!
# Where bindings come from

What all simple statements in a statement keep, the statement keeps
(`Statement.keeps_run_of_simple`). A simple statement adds no binding but the one it is written for,
and calls leave none behind. So the bindings that a program leaves are accounted for by the
declarations and the assignments that stand in it outside the bodies of its functions
(`RunsTo.bindings_from_top_level`).
-/

namespace Arrow

/-! ## From simple statements to all of them -/

section

variable {R : State → State → Prop} [IsPreorder State R] {ctx : Context}

namespace Statement

theorem keeps_runAll_of_forall {statements : List Statement}
    (h : ∀ statement ∈ statements, (statement.run ctx).Keeps R) :
    (runAll ctx statements).Keeps R := by
  induction statements with
  | nil => exact Action.keeps_pure _
  | cons statement statements ih =>
    obtain ⟨hfirst, hrest⟩ := List.forall_mem_cons.1 h
    exact Flow.keeps_andThen hfirst (ih hrest)

theorem keeps_runBranches_of_forall (hcall : ctx.call.Keeps R) {branches : List Branch}
    (h : ∀ statement ∈ branches.flatMap (·.body), (statement.run ctx).Keeps R) :
    (runBranches ctx branches).Keeps R := by
  induction branches with
  | nil => exact Action.keeps_pure _
  | cons branch branches ih =>
    obtain ⟨condition, body⟩ := branch
    rw [List.flatMap_cons, List.forall_mem_append] at h
    refine (condition.keeps_eval hcall).bind fun value => ?_
    split
    · exact (keeps_runAll_of_forall h.1).bind fun _ => Action.keeps_pure _
    · exact ih h.2

/-- A statement keeps what the simple statements in it keep, and the calls. -/
theorem keeps_run_of_simple (hcall : ctx.call.Keeps R) (outer : Statement)
    (h : ∀ inner : Statement, inner.OccursIn outer → inner.IsSimple → (inner.run ctx).Keeps R) :
    (outer.run ctx).Keeps R := by
  induction outer using inductionOn with
  | step outer ih =>
    have hchild (child : Statement) (hchild : child ∈ outer.children) : (child.run ctx).Keeps R :=
      ih child hchild fun inner hinner => h inner (.child hchild hinner)
    cases outer with
    | conditional branches otherwise p =>
      obtain ⟨hbranches, hotherwise⟩ := List.forall_mem_append.1 hchild
      refine (keeps_runBranches_of_forall hcall hbranches).bind fun flow => ?_
      match flow, otherwise with
      | some flow, _ => exact Action.keeps_pure _
      | none, none => exact Action.keeps_pure _
      | none, some body => exact keeps_runAll_of_forall hotherwise
    | whileLoop condition body p =>
      exact Flow.keeps_repeatWhile (condition.keeps_eval hcall) (keeps_runAll_of_forall hchild) _
    | forLoop init condition update body p =>
      obtain ⟨hinit, hrest⟩ := List.forall_mem_cons.1 hchild
      obtain ⟨hupdate, hbody⟩ := List.forall_mem_cons.1 hrest
      exact Flow.keeps_andThen hinit (Flow.keeps_repeatWhile (condition.keeps_eval hcall)
        (Flow.keeps_andThen (keeps_runAll_of_forall hbody) hupdate) _)
    | _ => exact h _ .self trivial

end Statement

theorem Program.keeps_runBody_of_forall {statements : List Statement}
    (h : ∀ statement ∈ statements, (statement.run ctx).Keeps R) :
    (runBody ctx statements).Keeps R := by
  induction statements with
  | nil => exact Action.keeps_pure _
  | cons statement statements ih =>
    obtain ⟨hfirst, hrest⟩ := List.forall_mem_cons.1 h
    refine hfirst.bind fun flow => ?_
    cases flow with
    | normal => exact ih hrest
    | returned value p => exact Action.keeps_fail _

end

/-- What an action keeps, it yields. -/
theorem Action.Keeps.yields {α : Type} {I : State → Prop} {action : Action α}
    (h : action.Keeps fun state after => I state → I after) : action.Yields I fun _ => True :=
  fun state hstate => (h state).mono fun _ hafter => ⟨hafter hstate, fun _ _ => trivial⟩

/-! ## Bindings that are allowed -/

/-- Every name that is bound may be bound in that way. -/
def Environment.Within (allowed : String → Mutability → Prop) (env : Environment) : Prop :=
  ∀ name binding, env.get? name = some binding → allowed name binding.mutability

/-- If all bindings were allowed before, they are so afterwards. -/
def StaysWithin (allowed : String → Mutability → Prop) (state after : State) : Prop :=
  state.environment.Within allowed → after.environment.Within allowed

instance (allowed : String → Mutability → Prop) : IsPreorder State (StaysWithin allowed) where
  refl _ := id
  trans _ _ _ h₁ h₂ := h₂ ∘ h₁

/--
The binding that a simple statement adds is allowed. If an assignment may not bind a name that has
no binding, then it need not be allowed unless some binding of the name is.
-/
def Statement.WritesWithin (allowed : String → Mutability → Prop) (mode : AssignmentMode) :
    Statement → Prop
  | declaration kind name _ _ _ => allowed name kind
  | assignment name _ _ => (mode = .reject → ∃ kind, allowed name kind) → allowed name .var
  | _ => True

section

variable {allowed : String → Mutability → Prop} {ctx : Context}

namespace Environment

theorem within_empty : empty.Within allowed :=
  fun _ _ h => nomatch h

theorem Within.overlay {env : Environment} {name : String} {kind : Mutability}
    (h : env.Within allowed) (hname : allowed name kind) (value : Value) :
    (env.overlay name value kind).Within allowed := by
  intro other binding hbinding
  rw [get?_overlay] at hbinding
  split at hbinding
  case isTrue heq =>
    cases hbinding
    exact heq ▸ hname
  case isFalse hne => exact h other binding hbinding

theorem writable_of_checkTarget {env : Environment} {mode : AssignmentMode} {name : String}
    {p : Position} (h : env.checkTarget mode name p = .ok ()) :
    (∀ value, env.get? name ≠ some ⟨value, .const⟩) ∧ (env.get? name = none → mode = .declare) := by
  constructor
  · intro value hconst
    rw [checkTarget_of_const hconst] at h
    exact nomatch h
  · intro hunbound
    cases mode with
    | declare => rfl
    | reject =>
      rw [checkTarget_of_unbound hunbound] at h
      exact nomatch h

end Environment

theorem SameBindings.staysWithin {state after : State} (h : SameBindings state after) :
    StaysWithin allowed state after := by
  unfold StaysWithin
  rw [h.1]
  exact id

namespace Statement

theorem staysWithin_assignment (hcall : ctx.call.Keeps SameBindings) {name : String} {expr : Expr}
    {p : Position} (h : (assignment name expr p).WritesWithin allowed ctx.config.assignment) :
    ((assignment name expr p).run ctx).Keeps (StaysWithin allowed) := by
  intro state
  cases htarget : state.environment.checkTarget ctx.config.assignment name p with
  | error cause =>
    rw [perform_assignment_of_error htarget]
    exact refl_of (StaysWithin allowed) state
  | ok _ =>
    obtain ⟨hconst, hbound⟩ := Environment.writable_of_checkTarget htarget
    rw [perform_assignment_of_writable hcall hconst hbound]
    apply (expr.keeps_eval hcall state).bind
    rintro ⟨halt | value, after⟩ hafter
    · exact hafter.staysWithin
    · intro hstate
      refine hstate.overlay (h fun hreject => ?_) value
      -- The check has found a binding of the name, and that is allowed.
      cases hget : state.environment.get? name with
      | none => exact nomatch (hbound hget).symm.trans hreject
      | some binding => exact ⟨_, hstate name binding hget⟩

/-- A simple statement adds no binding but the one it is written for. -/
theorem staysWithin_of_isSimple (hcall : ctx.call.Keeps SameBindings) {statement : Statement}
    (hsimple : statement.IsSimple) (h : statement.WritesWithin allowed ctx.config.assignment) :
    (statement.run ctx).Keeps (StaysWithin allowed) := by
  have eval (expr : Expr) : (expr.eval ctx.call).Keeps (StaysWithin allowed) :=
    (expr.keeps_eval hcall).mono fun _ _ => SameBindings.staysWithin
  cases statement with
  | declaration kind name type init p =>
    refine (eval init).bind fun value => (Action.keeps_check _).bind fun _ =>
      keeps_declare fun state env hdeclare hstate => ?_
    obtain ⟨-, rfl⟩ := Environment.eq_overlay_of_declare hdeclare
    exact hstate.overlay h value
  | assignment name expr p => exact staysWithin_assignment hcall h
  | function definition =>
    have redefine (table : FunctionTable) : (Action.redefine table).Keeps (StaysWithin allowed) :=
      fun _ => id
    exact Action.keeps_functions.bind fun _ => (Action.keeps_check _).bind fun table =>
      (redefine table).bind fun _ => Action.keeps_pure _
  | returnValue expr p => exact (eval expr).bind fun _ => Action.keeps_pure _
  | expression expr p => exact (eval expr).bind fun _ => Action.keeps_pure _
  | conditional _ _ _ | whileLoop _ _ _ | forLoop _ _ _ _ _ => exact hsimple.elim

end Statement

/-- A program leaves only allowed bindings if its statements write only such. -/
theorem Program.yields_within (hcall : ctx.call.Keeps SameBindings) (program : Program)
    (h : ∀ statement : Statement, (Part.program program).Has statement →
      statement.WritesWithin allowed ctx.config.assignment) :
    (program.run ctx).Yields (fun state => state.environment.Within allowed)
      (fun env => env.Within allowed) := by
  have hcall' : ctx.call.Keeps (StaysWithin allowed) :=
    fun name args p => (hcall name args p).mono fun _ _ => SameBindings.staysWithin
  have hstatement (outer : Statement) (houter : outer ∈ program.body) :
      (outer.run ctx).Keeps (StaysWithin allowed) :=
    outer.keeps_run_of_simple hcall' fun inner hinner hsimple =>
      Statement.staysWithin_of_isSimple hcall hsimple (h inner ⟨outer, houter, hinner⟩)
  exact (keeps_runBody_of_forall hstatement).yields.bind fun _ _ =>
    (keeps_runEntryPoint hcall').yields.bind fun _ _ =>
      Action.yields_environment fun _ hstate => hstate

end

/-! ## What a program may bind -/

namespace Program

/-- A declaration of the variable stands in the program, outside the bodies of functions. -/
def Declares (program : Program) (kind : Mutability) (name : String) : Prop :=
  ∃ type init p, (Part.program program).Has (.declaration kind name type init p)

/-- An assignment to the name stands in the program, outside the bodies of functions. -/
def Assigns (program : Program) (name : String) : Prop :=
  ∃ value p, (Part.program program).Has (.assignment name value p)

/-- A binding of the name comes from a declaration of its kind, or it is a variable assigned to. -/
structure MayBind (program : Program) (mode : AssignmentMode) (name : String)
    (kind : Mutability) : Prop where
  written : program.Declares kind name ∨ kind = .var ∧ program.Assigns name
  declared : mode = .reject → ∃ kind, program.Declares kind name

theorem writesWithin_mayBind {program : Program} {mode : AssignmentMode} {statement : Statement}
    (h : (Part.program program).Has statement) :
    statement.WritesWithin (program.MayBind mode) mode := by
  cases statement with
  | declaration kind name type init p =>
    have hdeclares : program.Declares kind name := ⟨type, init, p, h⟩
    exact ⟨.inl hdeclares, fun _ => ⟨kind, hdeclares⟩⟩
  | assignment name value p =>
    intro hbound
    refine ⟨.inr ⟨rfl, value, p, h⟩, fun hreject => ?_⟩
    obtain ⟨kind, hkind⟩ := hbound hreject
    exact hkind.declared hreject
  | _ => trivial

end Program

section

variable {σ : Type} [Console σ] {config : Config} {source : String} {console after : σ}
  {env : Environment}

/-- A source text whose run succeeds is that of a program, which leaves the bindings. -/
theorem RunsTo.exists_program (h : RunsTo config source console (.ok env) after) :
    ∃ rounds tokens program, tokenize source = .ok tokens ∧ parse tokens = .ok program ∧
      (program.ending (.outermost config rounds) console).1.1 = .ok env := by
  obtain ⟨rounds, hrun⟩ := h
  cases htokens : tokenize source with
  | error cause =>
    unfold runSource at hrun
    rw [htokens] at hrun
    cases hrun
  | ok tokens =>
    cases hparse : parse tokens with
    | error cause =>
      rw [conduct_runSource_of_parseError htokens hparse] at hrun
      cases hrun
    | ok program =>
      rw [conduct_runSource_of_parse htokens hparse] at hrun
      exact ⟨rounds, tokens, program, rfl, hparse, congrArg Prod.fst hrun⟩

/--
Every name that is bound when a run has succeeded is the target of a declaration or an assignment
that stands in the program outside the bodies of its functions. It is that of a declaration if the
configuration rejects other assignments, and that of a declaration as a constant if it is bound as
one. So no parameter and no name that only a function binds is among these names.
-/
theorem RunsTo.bindings_from_top_level (h : RunsTo config source console (.ok env) after) :
    ∃ tokens program, tokenize source = .ok tokens ∧ parse tokens = .ok program ∧
      ∀ name binding, env.get? name = some binding →
        ((∃ kind, program.Declares kind name) ∨ program.Assigns name) ∧
        (config.assignment = .reject → ∃ kind, program.Declares kind name) ∧
        (binding.mutability = .const → program.Declares .const name) := by
  obtain ⟨rounds, tokens, program, htokens, hparse, hending⟩ := h.exists_program
  refine ⟨tokens, program, htokens, hparse, fun name binding hbinding => ?_⟩
  have hyields : (program.run (.outermost config rounds)).Yields
      (fun state => state.environment.Within (program.MayBind config.assignment))
      (fun env => env.Within (program.MayBind config.assignment)) :=
    program.yields_within (invoke_sameBindings config rounds config.maxCallDepth)
      fun _ => Program.writesWithin_mayBind
  have hwithin : env.Within (program.MayBind config.assignment) :=
    ((hyields .initial Environment.within_empty).conduct console).2 env hending
  obtain ⟨hwritten, hdeclared⟩ := hwithin name binding hbinding
  refine ⟨?_, hdeclared, fun hconst => ?_⟩
  · exact hwritten.imp (fun hdeclares => ⟨_, hdeclares⟩) And.right
  · rcases hwritten with hdeclares | ⟨hvar, -⟩
    · exact hconst ▸ hdeclares
    · exact nomatch hconst.symm.trans hvar

/-- A branch declares a constant; the parameter and the variable of the function are not bound. -/
theorem runsTo_bindings_from_top_level_of_call :
    let source := "<fn>f(n)\x7b<var>k\x7d<fn>main()\x7bf(1)\x7d<var>x if(1)\x7b<const>c\x7d"
    let env := (Environment.empty.overlay "x" .null .var).overlay "c" .null .const
    let strict : Config := ⟨.always, .reject, 2⟩
    RunsTo strict source (⟨[], ""⟩ : Transcript) (.ok env) ⟨[], ""⟩ ∧
      ∃ tokens program, tokenize source = .ok tokens ∧ parse tokens = .ok program ∧
        ∀ name binding, env.get? name = some binding →
          ((∃ kind, program.Declares kind name) ∨ program.Assigns name) ∧
          (strict.assignment = .reject → ∃ kind, program.Declares kind name) ∧
          (binding.mutability = .const → program.Declares .const name) := by
  intro source env strict
  have hrun : RunsTo strict source (⟨[], ""⟩ : Transcript) (.ok env) ⟨[], ""⟩ := ⟨1, by cbv⟩
  exact ⟨hrun, hrun.bindings_from_top_level⟩

end

end Arrow
