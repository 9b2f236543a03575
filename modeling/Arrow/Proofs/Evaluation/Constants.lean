import Arrow.Proofs.Evaluation.Bindings

/-!
# Constants are permanent

An environment grows when it keeps every name bound and every constant as it is. Declaring a name
lets the environment grow, or fails, and a call leaves the environment of its caller alone. So from
any state on, the environment in force grows with every statement, whether it ends well or fails.
-/

namespace Arrow

namespace Environment

/-- What `env` binds is still bound in `after`, and constants have the same values. -/
structure Grows (env after : Environment) : Prop where
  bound : ∀ name, (env.get? name).isSome → (after.get? name).isSome
  constant : ∀ name value, env.get? name = some ⟨value, .const⟩ →
    after.get? name = some ⟨value, .const⟩

theorem Grows.refl (env : Environment) : env.Grows env :=
  ⟨fun _ h => h, fun _ _ h => h⟩

theorem Grows.trans {first second third : Environment} (h : first.Grows second)
    (h' : second.Grows third) : first.Grows third :=
  ⟨fun name hbound => h'.bound name (h.bound name hbound),
    fun name value hconst => h'.constant name value (h.constant name value hconst)⟩

/-- Overlaying a name lets an environment grow unless the name is bound as a constant. -/
theorem grows_overlay {env : Environment} {name : String}
    (h : ∀ value, env.get? name ≠ some ⟨value, .const⟩) (value : Value) (kind : Mutability) :
    env.Grows (env.overlay name value kind) := by
  constructor
  · intro other hbound
    rw [get?_overlay]
    split
    · rfl
    · exact hbound
  · intro other value' hconst
    rw [get?_overlay, if_neg]
    · exact hconst
    · rintro rfl
      exact h value' hconst

theorem ensureWritable_eq_ok {env : Environment} {name : String} {p : Position}
    (h : env.ensureWritable name p = .ok ()) (value : Value) :
    env.get? name ≠ some ⟨value, .const⟩ := by
  intro hconst
  simp [ensureWritable, hconst] at h

theorem grows_of_declare {env after : Environment} {name : String} {value : Value}
    {kind : Mutability} {p : Position} (h : env.declare name value kind p = .ok after) :
    env.Grows after := by
  obtain ⟨hwritable, rfl⟩ := eq_overlay_of_declare h
  exact grows_overlay (ensureWritable_eq_ok hwritable) value kind

end Environment

/-- The environment in force has grown. -/
def BindingsGrow (state after : State) : Prop :=
  state.environment.Grows after.environment

instance : IsPreorder State BindingsGrow where
  refl state := .refl state.environment
  trans _ _ _ h h' := h.trans h'

theorem allowsDeclarations_bindingsGrow : AllowsDeclarations BindingsGrow where
  declare h := Environment.grows_of_declare h
  define _ := .refl _

/-- The environment of the caller does not even grow: it is the same again. -/
theorem invoke_bindingsGrow (config : Config) (rounds calls : Nat) :
    Calling.Keeps BindingsGrow (invoke config rounds calls) := by
  intro name args p
  refine (invoke_sameBindings config rounds calls name args p).mono fun state after h => ?_
  have hsame : after.environment = state.environment := h.1
  unfold BindingsGrow
  rw [hsame]
  exact .refl _

/-- The environment in force when an action has ended, however it has ended. -/
def Action.environmentAfter {σ α : Type} [Console σ] (action : Action α) (state : State)
    (console : σ) : Environment :=
  ((action.perform state).conduct console).1.2.environment

/--
From any state on, whatever a statement, a sequence of statements or a whole program does and
however it ends, no name is unbound and no constant changes in the environment that is in force; and
a call, in whose own environment parameters may hide constants, leaves that of its caller as it was.
-/
theorem constants_permanent (config : Config) (rounds calls : Nat) (state : State) {σ : Type}
    [Console σ] (console : σ) :
    let ctx : Context := ⟨config, rounds, invoke config rounds calls⟩
    (∀ statement : Statement,
      state.environment.Grows ((statement.run ctx).environmentAfter state console)) ∧
    (∀ statements : List Statement,
      state.environment.Grows ((Statement.runAll ctx statements).environmentAfter state console)) ∧
    (∀ program : Program,
      state.environment.Grows ((program.run ctx).environmentAfter state console)) ∧
    ∀ (name : String) (args : List Value) (p : Position),
      (ctx.call name args p).environmentAfter state console = state.environment := by
  intro ctx
  have hcall : ctx.call.Keeps BindingsGrow := invoke_bindingsGrow config rounds calls
  have hdeclare := allowsDeclarations_bindingsGrow
  refine ⟨fun statement => ?_, fun statements => ?_, fun program => ?_, fun name args p => ?_⟩
  · exact (statement.keeps_run hdeclare hcall state).conduct console
  · exact (Statement.keeps_runAll hdeclare hcall statements state).conduct console
  · exact (program.keeps_run hdeclare hcall state).conduct console
  · exact ((invoke_sameBindings config rounds calls name args p state).conduct console).1

end Arrow
