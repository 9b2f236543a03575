import Arrow.Action
import Arrow.Proofs.Dialogue.Ends
import Mathlib.Order.Defs.Unbundled

/-!
# What actions keep

`action.Keeps R` says that the state after an action is related by `R` to the state before,
whatever the console answers and however the action ends. For a reflexive and transitive `R`, what
only reads the state keeps `R`, and sequences and loops keep what their parts keep.
-/

namespace Arrow

namespace Action

variable {α β : Type} {R Q : State → State → Prop}

/-- The state after the action is related to the one before. -/
def Keeps (R : State → State → Prop) (action : Action α) : Prop :=
  ∀ state, (action.perform state).Ends fun (_, after) => R state after

theorem Keeps.mono {action : Action α} (h : action.Keeps Q)
    (hQR : ∀ state after, Q state after → R state after) : action.Keeps R :=
  fun state => (h state).mono fun (_, after) => hQR state after

/-- A call keeps of the rest of the state what its body keeps. -/
theorem Keeps.within {action : Action α} (h : action.Keeps Q) (frame : Environment)
    (hQR : ∀ state after : State,
      Q { state with environment := frame, depth := state.depth + 1 } after →
      R state { after with environment := state.environment, depth := after.depth - 1 }) :
    (within frame action).Keeps R := by
  intro state
  rw [perform_within]
  exact (h _).bind fun (_, after) => hQR state after

theorem Keeps.bind [IsTrans State R] {action : Action α} {next : α → Action β}
    (h : action.Keeps R) (hnext : ∀ value, (next value).Keeps R) : (action >>= next).Keeps R := by
  intro state
  rw [perform_bind]
  apply (h state).bind
  rintro ⟨value | halt, after⟩ hafter
  · exact hafter
  · exact (hnext _ after).mono fun _ => trans_of R hafter

section Reading

variable [Std.Refl R]

theorem keeps_pure (value : α) : (pure value : Action α).Keeps R :=
  fun state => refl_of R state

theorem keeps_fail (cause : RuntimeError) : (fail cause : Action α).Keeps R :=
  fun state => refl_of R state

theorem keeps_check (result : Except RuntimeError α) : (check result).Keeps R := by
  cases result with
  | ok value => exact keeps_pure value
  | error cause => exact keeps_fail cause

theorem keeps_environment : environment.Keeps R :=
  fun state => refl_of R state

theorem keeps_functions : functions.Keeps R :=
  fun state => refl_of R state

theorem keeps_depth : depth.Keeps R :=
  fun state => refl_of R state

theorem keeps_write (text : String) (p : Position) : (write text p).Keeps R := by
  intro state
  rw [perform_write]
  rintro (_ | _) <;> exact refl_of R state

theorem keeps_readLine (p : Position) : (readLine p).Keeps R := by
  intro state
  rw [perform_readLine]
  rintro (_ | _) <;> exact refl_of R state

theorem Keeps.loop [IsTrans State R] {round : Action (Option β)} (h : round.Keeps R)
    (rounds : Nat) : (loop rounds round).Keeps R := by
  induction rounds with
  | zero => exact fun state => refl_of R state
  | succ rounds ih =>
    rw [loop_succ]
    refine h.bind fun value => ?_
    cases value with
    | none => exact ih
    | some value => exact keeps_pure value

end Reading

end Action

end Arrow
