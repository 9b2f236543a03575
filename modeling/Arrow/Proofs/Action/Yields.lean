import Arrow.Action
import Arrow.Proofs.Dialogue.Ends

/-!
# What actions yield

`action.Yields I Q` says that from a state in `I` an action comes to a state in `I`, however it
ends, and that `Q` holds of the value that it gives, if it gives one. This holds whatever the
console answers. Sequences, loops and calls yield what their last parts yield.
-/

namespace Arrow

namespace Action

variable {α β : Type} {I J : State → Prop} {P Q : α → Prop}

/-- From a state in `I` the action comes to one in `I`, and its value satisfies `Q`. -/
def Yields (I : State → Prop) (Q : α → Prop) (action : Action α) : Prop :=
  ∀ state, I state → (action.perform state).Ends fun (result, after) =>
    I after ∧ ∀ value, result = .ok value → Q value

theorem Yields.mono {action : Action α} (h : action.Yields I P) (hPQ : ∀ value, P value → Q value) :
    action.Yields I Q :=
  fun state hstate => (h state hstate).mono fun _ hafter =>
    ⟨hafter.1, fun value heq => hPQ value (hafter.2 value heq)⟩

theorem yields_pure {value : α} (h : Q value) : (pure value : Action α).Yields I Q := by
  refine fun state hstate => ⟨hstate, fun other heq => ?_⟩
  cases heq
  exact h

theorem yields_fail (cause : RuntimeError) : (fail cause : Action α).Yields I Q :=
  fun _ hstate => ⟨hstate, fun _ => nofun⟩

theorem yields_check {result : Except RuntimeError α} (h : ∀ value, result = .ok value → Q value) :
    (check result).Yields I Q := by
  cases result with
  | ok value => exact yields_pure (h value rfl)
  | error cause => exact yields_fail cause

theorem yields_environment {Q : Environment → Prop} (h : ∀ state, I state → Q state.environment) :
    environment.Yields I Q := by
  refine fun state hstate => ⟨hstate, fun env heq => ?_⟩
  cases heq
  exact h state hstate

theorem yields_functions : functions.Yields I fun _ => True :=
  fun _ hstate => ⟨hstate, fun _ _ => trivial⟩

theorem yields_depth : depth.Yields I fun _ => True :=
  fun _ hstate => ⟨hstate, fun _ _ => trivial⟩

theorem yields_rebind {env : Environment}
    (h : ∀ state, I state → I { state with environment := env }) :
    (rebind env).Yields I fun _ => True :=
  fun state hstate => ⟨h state hstate, fun _ _ => trivial⟩

theorem yields_redefine {table : FunctionTable}
    (h : ∀ state, I state → I { state with functions := table }) :
    (redefine table).Yields I fun _ => True :=
  fun state hstate => ⟨h state hstate, fun _ _ => trivial⟩

theorem yields_write (text : String) (p : Position) : (write text p).Yields I fun _ => True := by
  intro state hstate
  rw [perform_write]
  rintro (reason | _)
  · exact yields_fail _ state hstate
  · exact yields_pure trivial state hstate

theorem yields_readLine (p : Position) : (readLine p).Yields I fun _ => True := by
  intro state hstate
  rw [perform_readLine]
  rintro (reason | line)
  · exact yields_fail _ state hstate
  · exact yields_pure trivial state hstate

theorem Yields.bind {action : Action α} {next : α → Action β} {Q : β → Prop}
    (h : action.Yields I P) (hnext : ∀ value, P value → (next value).Yields I Q) :
    (action >>= next).Yields I Q := by
  intro state hstate
  rw [perform_bind]
  apply (h state hstate).bind
  rintro ⟨halt | value, after⟩ ⟨hafter, hvalue⟩
  · exact ⟨hafter, fun _ => nofun⟩
  · exact hnext value (hvalue value rfl) after hafter

/-- A loop yields what its last round yields. -/
theorem Yields.loop {round : Action (Option α)}
    (h : round.Yields I fun result => ∀ value ∈ result, Q value) (rounds : Nat) :
    (loop rounds round).Yields I Q := by
  induction rounds with
  | zero => exact fun state hstate => ⟨hstate, fun _ => nofun⟩
  | succ rounds ih =>
    rw [loop_succ]
    refine h.bind fun result hresult => ?_
    cases result with
    | none => exact ih
    | some value => exact yields_pure (hresult value rfl)

/-- A call yields what its body yields in a frame of its own. -/
theorem Yields.within {action : Action α} (h : action.Yields J Q) (frame : Environment)
    (henter : ∀ state : State, I state →
      J { state with environment := frame, depth := state.depth + 1 })
    (hleave : ∀ state after : State, I state → J after →
      I { after with environment := state.environment, depth := after.depth - 1 }) :
    (within frame action).Yields I Q := by
  intro state hstate
  rw [perform_within]
  apply (h _ (henter state hstate)).bind
  rintro ⟨result, after⟩ ⟨hafter, hresult⟩
  exact ⟨hleave state after hstate hafter, hresult⟩

end Action

end Arrow
