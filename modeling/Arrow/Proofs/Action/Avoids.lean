import Arrow.Action
import Arrow.Proofs.Dialogue.Ends

/-!
# What actions do not stop for

`action.Avoids bad I` says that from a state in `I` an action does not stop for a reason in `bad`
and comes to a state in `I`, whatever the console answers. What does not fail for such a reason
avoids it, and sequences and calls avoid what their parts avoid.
-/

namespace Arrow

namespace Action

variable {α β : Type} {bad : Halt → Prop} {I J : State → Prop}

/-- From the states in `I` the action does not stop for a bad reason, and it comes to one in `I`. -/
def Avoids (bad : Halt → Prop) (I : State → Prop) (action : Action α) : Prop :=
  ∀ state, I state → (action.perform state).Ends fun (result, after) =>
    (∀ halt, bad halt → result ≠ .error halt) ∧ I after

theorem avoids_pure (value : α) : (pure value : Action α).Avoids bad I :=
  fun _ hstate => ⟨fun _ _ => nofun, hstate⟩

theorem avoids_fail {cause : RuntimeError} (h : ¬ bad (.error (.runtime cause))) :
    (fail cause : Action α).Avoids bad I := by
  refine fun _ hstate => ⟨fun halt hbad heq => h ?_, hstate⟩
  cases heq
  exact hbad

theorem avoids_check {result : Except RuntimeError α}
    (h : ∀ cause, result = .error cause → ¬ bad (.error (.runtime cause))) :
    (check result).Avoids bad I := by
  cases result with
  | ok value => exact avoids_pure value
  | error cause => exact avoids_fail (h cause rfl)

theorem avoids_environment : environment.Avoids bad I :=
  fun _ hstate => ⟨fun _ _ => nofun, hstate⟩

theorem avoids_functions : functions.Avoids bad I :=
  fun _ hstate => ⟨fun _ _ => nofun, hstate⟩

theorem avoids_depth : depth.Avoids bad I :=
  fun _ hstate => ⟨fun _ _ => nofun, hstate⟩

theorem avoids_rebind {environment : Environment}
    (h : ∀ state, I state → I { state with environment := environment }) :
    (rebind environment).Avoids bad I :=
  fun state hstate => ⟨fun _ _ => nofun, h state hstate⟩

theorem avoids_write {text : String} {p : Position}
    (h : ∀ reason, ¬ bad (.error (.runtime (.io reason p)))) : (write text p).Avoids bad I := by
  intro state hstate
  rw [perform_write]
  rintro (reason | _)
  · exact avoids_fail (α := Unit) (h reason) state hstate
  · exact avoids_pure () state hstate

theorem avoids_readLine {p : Position} (h : ∀ reason, ¬ bad (.error (.runtime (.io reason p)))) :
    (readLine p).Avoids bad I := by
  intro state hstate
  rw [perform_readLine]
  rintro (reason | line)
  · exact avoids_fail (α := Option String) (h reason) state hstate
  · exact avoids_pure line state hstate

theorem Avoids.bind {action : Action α} {next : α → Action β} (h : action.Avoids bad I)
    (hnext : ∀ value, (next value).Avoids bad I) : (action >>= next).Avoids bad I := by
  intro state hstate
  rw [perform_bind]
  apply (h state hstate).bind
  rintro ⟨halt | value, after⟩ ⟨havoids, hafter⟩
  · exact ⟨fun other hbad heq => havoids other hbad (congrArg Except.error (Except.error.inj heq)),
      hafter⟩
  · exact hnext value after hafter

theorem Avoids.loop {round : Action (Option β)} (h : round.Avoids bad I) (hbad : ¬ bad .exhausted)
    (rounds : Nat) : (loop rounds round).Avoids bad I := by
  induction rounds with
  | zero =>
    refine fun state hstate => ⟨fun halt hhalt heq => hbad ?_, hstate⟩
    obtain rfl := Except.error.inj heq
    exact hhalt
  | succ rounds ih =>
    rw [loop_succ]
    refine h.bind fun value => ?_
    cases value with
    | none => exact ih
    | some value => exact avoids_pure value

/-- A call avoids what its body avoids in a frame of its own. -/
theorem Avoids.within {action : Action α} (h : action.Avoids bad J) (frame : Environment)
    (henter : ∀ state : State, I state →
      J { state with environment := frame, depth := state.depth + 1 })
    (hleave : ∀ state after : State, I state → J after →
      I { after with environment := state.environment, depth := after.depth - 1 }) :
    (within frame action).Avoids bad I := by
  intro state hstate
  rw [perform_within]
  apply (h _ (henter state hstate)).bind
  rintro ⟨result, after⟩ ⟨havoids, hafter⟩
  exact ⟨havoids, hleave state after hstate hafter⟩

end Action

end Arrow
