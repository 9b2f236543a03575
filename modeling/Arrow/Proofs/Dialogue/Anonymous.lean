import Arrow.Proofs.Dialogue.Lockstep

/-!
# Dialogues without their callers

No console looks at the position of the call on whose behalf it is asked (`conduct_anonymous`). So
dialogues that are in lockstep but for these positions are held alike.
-/

namespace Arrow

namespace Dialogue

variable {σ α β γ δ : Type}

/-- The dialogue without the positions of the calls. -/
def anonymous : Dialogue α → Dialogue α
  | done value => done value
  | write text _ next => write text none fun answer => (next answer).anonymous
  | read _ next => read none fun answer => (next answer).anonymous

@[simp]
theorem anonymous_bind (d : Dialogue α) (f : α → Dialogue β) :
    (d >>= f).anonymous = d.anonymous >>= fun value => (f value).anonymous := by
  induction d with
  | done value => rfl
  | write text caller next ih => exact congrArg (write text none) (funext ih)
  | read caller next ih => exact congrArg (read none) (funext ih)

@[simp]
theorem conduct_anonymous [Console σ] (d : Dialogue α) (console : σ) :
    d.anonymous.conduct console = d.conduct console := by
  induction d generalizing console with
  | done value => rfl
  | write text caller next ih => exact ih _ _
  | read caller next ih => exact ih _ _

/-- Callers apart, the dialogues say and ask the same and end in results related by `R`. -/
def Parallel (R : α → β → Prop) (d : Dialogue α) (e : Dialogue β) : Prop :=
  d.anonymous.Lockstep (fun _ => False) R e.anonymous

theorem Parallel.bind {R : α → β → Prop} {Q : γ → δ → Prop} {d : Dialogue α} {e : Dialogue β}
    {f : α → Dialogue γ} {g : β → Dialogue δ} (h : d.Parallel R e)
    (hnext : ∀ value other, R value other → (f value).Parallel Q (g other)) :
    (d >>= f).Parallel Q (e >>= g) := by
  unfold Parallel
  rw [anonymous_bind, anonymous_bind]
  exact Lockstep.bind h (fun _ => False.elim) hnext

/-- Held with the same console, the dialogues end alike and leave the console alike. -/
theorem Parallel.conduct [Console σ] {R : α → β → Prop} {d : Dialogue α} {e : Dialogue β}
    (h : d.Parallel R e) (console : σ) :
    R (d.conduct console).1 (e.conduct console).1 ∧
      (d.conduct console).2 = (e.conduct console).2 := by
  have hboth := (Lockstep.conduct h console).resolve_left id
  rwa [conduct_anonymous, conduct_anonymous] at hboth

end Dialogue

end Arrow
