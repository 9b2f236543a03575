import Arrow.Proofs.Evaluation.Invariant

/-!
# Expressions and bindings

A statement leaves as many calls active as there were, and a call puts the environment and the count
back. So an expression touches neither, and the bindings that a program leaves are those of its
outermost statements.
-/

namespace Arrow

/-- The same number of calls is active. -/
def SameDepth (state after : State) : Prop :=
  after.depth = state.depth

/-- The same bindings are in force and the same number of calls is active. -/
def SameBindings (state after : State) : Prop :=
  after.environment = state.environment ∧ after.depth = state.depth

instance : IsPreorder State SameDepth where
  refl _ := rfl
  trans _ _ _ h₁ h₂ := Eq.trans h₂ h₁

instance : IsPreorder State SameBindings where
  refl _ := ⟨rfl, rfl⟩
  trans _ _ _ h₁ h₂ := ⟨h₂.1.trans h₁.1, h₂.2.trans h₁.2⟩

theorem allowsDeclarations_sameDepth : AllowsDeclarations SameDepth :=
  ⟨fun _ => rfl, fun _ => rfl⟩

theorem invoke_sameBindings (config : Config) (rounds calls : Nat) :
    Calling.Keeps SameBindings (invoke config rounds calls) := by
  refine Calling.keeps_invoke allowsDeclarations_sameDepth (fun _ _ h => h.2) ?_ config rounds calls
  intro frame state after h
  refine ⟨rfl, ?_⟩
  show after.depth - 1 = state.depth
  rw [h, Nat.add_sub_cancel]

theorem invoke_sameDepth (config : Config) (rounds calls : Nat) :
    Calling.Keeps SameDepth (invoke config rounds calls) :=
  fun name args p => (invoke_sameBindings config rounds calls name args p).mono fun _ _ h => h.2

/-- The environment may be read before an action that leaves it alone. -/
theorem Action.bind_environment {action : Action Unit} (h : action.Keeps SameBindings) :
    (action >>= fun _ => Action.environment) =
      Action.environment >>= fun left => action >>= fun _ => pure left := by
  funext state
  change Action.perform _ state = Action.perform _ state
  rw [Action.perform_environment_bind, Action.perform_bind, Action.perform_bind]
  apply (h state).bind_congr
  rintro ⟨halt | _, after⟩ hafter
  · rfl
  · rw [← hafter.1]
    rfl

/-- However an expression ends, it leaves the environment and the number of active calls alone. -/
theorem eval_keeps_bindings (config : Config) (rounds calls : Nat) :
    (∀ (expr : Expr) (state : State) {σ : Type} [Console σ] (console : σ),
      let action := expr.eval (invoke config rounds calls)
      let after := ((action.perform state).conduct console).1.2
      after.environment = state.environment ∧ after.depth = state.depth) ∧
    ∀ program : Program, program.run (.outermost config rounds) = (do
      Program.runBody (.outermost config rounds) program.body
      let left ← Action.environment
      Program.runEntryPoint (.outermost config rounds)
      pure left) := by
  constructor
  · intro expr state σ _ console
    exact (Expr.keeps_eval (invoke_sameBindings config rounds calls) expr state).conduct console
  · intro program
    unfold Program.run
    rw [Action.bind_environment (Program.keeps_runEntryPoint (invoke_sameBindings _ _ _))]

end Arrow
