import Arrow.Action
import Arrow.Proofs.Dialogue.Lockstep

/-!
# Actions that run alike

`Alike waived R a b` compares the runs of two actions from states that are related by `R`: they say
and ask the same, give the same result and end in related states, unless the first stops for a
reason that is waived. A bound on loops may be `Raised` if it is waived that loops are exhausted.
-/

namespace Arrow

namespace Action

variable {α β : Type} {waived : Halt → Prop} {R Q : State → State → Prop}

/-- An action has stopped for a reason that is waived. -/
def Stopped (waived : Halt → Prop) (ending : Except Halt α × State) : Prop :=
  ∃ halt, ending.1 = .error halt ∧ waived halt

/-- From related states two actions run in lockstep to the same result and to related states. -/
def Alike (waived : Halt → Prop) (R : State → State → Prop) (a b : Action α) : Prop :=
  ∀ s t, R s t → (a.perform s).Lockstep (Stopped waived)
    (fun (result, s) (other, t) => result = other ∧ R s t) (b.perform t)

theorem alike_pure (value : α) : Alike waived R (pure value) (pure value) :=
  fun _ _ h => .done ⟨rfl, h⟩

theorem alike_fail (cause : RuntimeError) :
    Alike waived R (fail cause : Action α) (fail cause) :=
  fun _ _ h => .done ⟨rfl, h⟩

theorem alike_fail_of_waived {cause : RuntimeError} (h : waived (.error (.runtime cause)))
    (other : Action α) : Alike waived R (fail cause) other :=
  fun _ _ _ => .waived ⟨_, rfl, h⟩

theorem alike_check (result : Except RuntimeError α) :
    Alike waived R (check result) (check result) := by
  cases result with
  | ok value => exact alike_pure value
  | error cause => exact alike_fail cause

theorem alike_write (text : String) (p : Position) :
    Alike waived R (write text p) (write text p) := by
  intro s t h
  rw [perform_write, perform_write]
  refine .write fun answer => ?_
  cases answer with
  | ok _ => exact .done ⟨rfl, h⟩
  | error reason => exact .done ⟨rfl, h⟩

theorem alike_readLine (p : Position) : Alike waived R (readLine p) (readLine p) := by
  intro s t h
  rw [perform_readLine, perform_readLine]
  refine .read fun answer => ?_
  cases answer with
  | ok line => exact .done ⟨rfl, h⟩
  | error reason => exact .done ⟨rfl, h⟩

theorem Alike.bind {a b : Action α} {f g : α → Action β} (h : Alike waived R a b)
    (hnext : ∀ value, Alike waived R (f value) (g value)) :
    Alike waived R (a >>= f) (b >>= g) := by
  intro s t hst
  rw [perform_bind, perform_bind]
  refine (h s t hst).bind ?_ ?_
  · rintro ⟨_, s⟩ ⟨halt, rfl, hwaived⟩ e
    exact .waived ⟨halt, rfl, hwaived⟩
  · rintro ⟨result, s⟩ ⟨_, t⟩ ⟨rfl, hst⟩
    cases result with
    | ok value => exact hnext value s t hst
    | error halt => exact .done ⟨rfl, hst⟩

/-- A bound is kept, or it is raised and reaching the old one is waived. -/
structure Raised (waived : Prop) (bound bound' : Nat) : Prop where
  le : bound ≤ bound'
  waived_of_lt : bound < bound' → waived

theorem Raised.refl (waived : Prop) (bound : Nat) : Raised waived bound bound :=
  ⟨Nat.le_refl bound, fun h => absurd h (Nat.lt_irrefl bound)⟩

theorem Raised.of_succ {waived : Prop} {bound bound' : Nat}
    (h : Raised waived (bound + 1) (bound' + 1)) : Raised waived bound bound' :=
  ⟨Nat.le_of_succ_le_succ h.le, fun hlt => h.waived_of_lt (Nat.succ_lt_succ hlt)⟩

theorem Alike.loop {first second : Action (Option β)} (h : Alike waived R first second) :
    ∀ {rounds rounds' : Nat}, Raised (waived .exhausted) rounds rounds' →
      Alike waived R (loop rounds first) (loop rounds' second)
  | 0, 0, _ => fun _ _ hst => .done ⟨rfl, hst⟩
  | 0, _ + 1, hrounds => fun _ _ _ =>
    .waived ⟨.exhausted, rfl, hrounds.waived_of_lt (Nat.succ_pos _)⟩
  | _ + 1, 0, hrounds => absurd hrounds.le (Nat.not_succ_le_zero _)
  | rounds + 1, rounds' + 1, hrounds => by
    rw [loop_succ, loop_succ]
    refine h.bind fun value => ?_
    cases value with
    | none => exact h.loop hrounds.of_succ
    | some value => exact alike_pure value

/-- Two computations fail for the same reason or give related results. -/
def ResultsAlike (rel : α → β → Prop) : Except RuntimeError α → Except RuntimeError β → Prop
  | .ok value, .ok other => rel value other
  | .error cause, .error other => cause = other
  | _, _ => False

theorem alike_check_bind {γ : Type} {rel : α → β → Prop} {first : Except RuntimeError α}
    {second : Except RuntimeError β} {f : α → Action γ} {g : β → Action γ}
    (h : ResultsAlike rel first second)
    (hnext : ∀ value other, rel value other → Alike waived R (f value) (g other)) :
    Alike waived R (check first >>= f) (check second >>= g) := by
  cases first with
  | ok value =>
    cases second with
    | ok other => exact hnext value other h
    | error cause => exact h.elim
  | error cause =>
    cases second with
    | ok other => exact h.elim
    | error other =>
      obtain rfl : cause = other := h
      exact fun s t hst => .done ⟨rfl, hst⟩

/-- Two calls run alike when their bodies do in frames of their own. -/
theorem Alike.within {a b : Action α} (h : Alike waived Q a b) (first second : Environment)
    (henter : ∀ s t : State, R s t → Q { s with environment := first, depth := s.depth + 1 }
      { t with environment := second, depth := t.depth + 1 })
    (hleave : ∀ s t s' t' : State, R s t → Q s' t' →
      R { s' with environment := s.environment, depth := s'.depth - 1 }
        { t' with environment := t.environment, depth := t'.depth - 1 }) :
    Alike waived R (within first a) (within second b) := by
  intro s t hst
  rw [perform_within, perform_within]
  refine (h _ _ (henter s t hst)).bind ?_ ?_
  · rintro ⟨_, s'⟩ ⟨halt, rfl, hwaived⟩ e
    exact .waived ⟨halt, rfl, hwaived⟩
  · rintro ⟨result, s'⟩ ⟨_, t'⟩ ⟨rfl, hst'⟩
    exact .done ⟨rfl, hleave s t s' t' hst hst'⟩

end Action

end Arrow
