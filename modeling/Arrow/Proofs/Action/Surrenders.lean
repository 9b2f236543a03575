import Arrow.Action
import Arrow.Proofs.Dialogue.Faults

/-!
# Actions that stop for a failure of the console

`action.Surrenders` says that the action stops as soon as a request of it fails, with an error at
the position of the call that asked. Nothing catches an error, so whatever is built of such actions
surrenders as well.
-/

namespace Arrow

namespace Action

variable {α β : Type}

/-- The action has stopped for the given reason. -/
def StoppedFor (cause : RuntimeError) (ending : Except Halt α × State) : Prop :=
  ending.1 = .error (.error (.runtime cause))

/-- A failure of the console is the last that happens, and the reason for which the action stops. -/
def Surrenders (action : Action α) : Prop :=
  ∀ state, (action.perform state).Surrenders StoppedFor

theorem surrenders_pure (value : α) : (pure value : Action α).Surrenders :=
  fun _ => trivial

theorem surrenders_fail (cause : RuntimeError) : (fail cause : Action α).Surrenders :=
  fun _ => trivial

theorem surrenders_environment : environment.Surrenders :=
  fun _ => trivial

theorem surrenders_functions : functions.Surrenders :=
  fun _ => trivial

theorem surrenders_depth : depth.Surrenders :=
  fun _ => trivial

theorem surrenders_rebind (env : Environment) : (rebind env).Surrenders :=
  fun _ => trivial

theorem surrenders_redefine (functions : FunctionTable) : (redefine functions).Surrenders :=
  fun _ => trivial

theorem surrenders_write (text : String) (p : Position) : (write text p).Surrenders := by
  intro state
  rw [perform_write]
  refine ⟨⟨p, rfl, fun reason => ⟨_, rfl, rfl⟩⟩, ?_⟩
  rintro (reason | _) <;> trivial

theorem surrenders_readLine (p : Position) : (readLine p).Surrenders := by
  intro state
  rw [perform_readLine]
  refine ⟨⟨p, rfl, fun reason => ⟨_, rfl, rfl⟩⟩, ?_⟩
  rintro (reason | line) <;> trivial

theorem Surrenders.bind {action : Action α} {next : α → Action β} (h : action.Surrenders)
    (hnext : ∀ value, (next value).Surrenders) : (action >>= next).Surrenders := by
  intro state
  rw [perform_bind]
  refine (h state).bind ?_ ?_
  · rintro ⟨halt | value, after⟩
    · trivial
    · exact hnext value after
  · rintro cause ⟨_, after⟩ rfl
    exact ⟨_, rfl, rfl⟩

theorem Surrenders.within {action : Action α} (h : action.Surrenders) (frame : Environment) :
    (within frame action).Surrenders := by
  intro state
  rw [perform_within]
  refine (h _).bind (fun _ => trivial) ?_
  rintro cause ⟨_, after⟩ rfl
  exact ⟨_, rfl, rfl⟩

theorem Surrenders.loop {round : Action (Option β)} (h : round.Surrenders) (rounds : Nat) :
    (loop rounds round).Surrenders := by
  induction rounds with
  | zero => exact fun _ => trivial
  | succ rounds ih =>
    rw [loop_succ]
    refine h.bind fun value => ?_
    cases value with
    | none => exact ih
    | some value => exact surrenders_pure value

end Action

end Arrow
