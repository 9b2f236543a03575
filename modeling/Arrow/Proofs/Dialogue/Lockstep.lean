import Arrow.Dialogue.Console

/-!
# Dialogues in lockstep

`d.Lockstep waived R e` says that `d` and `e` say and ask the same, and end in results related by
`R`; only where `d` ends in a result that is waived, nothing is said about `e`. Sequences of
dialogues are in lockstep when their parts are (`Lockstep.bind`), and a console that holds either
of two such dialogues ends up the same (`Lockstep.conduct`).
-/

namespace Arrow

namespace Dialogue

variable {σ α β γ δ : Type}

/-- Two dialogues say and ask the same and end in related results, unless the first is waived. -/
inductive Lockstep (waived : α → Prop) (R : α → β → Prop) : Dialogue α → Dialogue β → Prop
  | waived {value : α} {e : Dialogue β} (h : waived value) : Lockstep waived R (done value) e
  | done {value : α} {other : β} (h : R value other) : Lockstep waived R (done value) (done other)
  | write {text : String} {caller : Option Position} {f : Except String Unit → Dialogue α}
      {g : Except String Unit → Dialogue β}
      (h : ∀ answer, Lockstep waived R (f answer) (g answer)) :
      Lockstep waived R (write text caller f) (write text caller g)
  | read {caller : Option Position} {f : Except String (Option String) → Dialogue α}
      {g : Except String (Option String) → Dialogue β}
      (h : ∀ answer, Lockstep waived R (f answer) (g answer)) :
      Lockstep waived R (read caller f) (read caller g)

theorem Lockstep.bind {waived : α → Prop} {R : α → β → Prop} {waived' : γ → Prop}
    {R' : γ → δ → Prop} {d : Dialogue α} {e : Dialogue β} {f : α → Dialogue γ}
    {g : β → Dialogue δ} (h : d.Lockstep waived R e)
    (hwaived : ∀ value, waived value → ∀ e, (f value).Lockstep waived' R' e)
    (hR : ∀ value other, R value other → (f value).Lockstep waived' R' (g other)) :
    (d >>= f).Lockstep waived' R' (e >>= g) := by
  induction h with
  | waived h => exact hwaived _ h _
  | done h => exact hR _ _ h
  | write _ ih => exact .write ih
  | read _ ih => exact .read ih

/-- Dialogues in lockstep that waive nothing are equal once related results are mapped alike. -/
theorem Lockstep.map_eq {waived : α → Prop} {R : α → β → Prop} {d : Dialogue α} {e : Dialogue β}
    {f : α → γ} {g : β → γ} (h : d.Lockstep waived R e) (hwaived : ∀ value, ¬ waived value)
    (hR : ∀ value other, R value other → f value = g other) : f <$> d = g <$> e := by
  induction h with
  | waived h => exact absurd h (hwaived _)
  | done h => exact congrArg Dialogue.done (hR _ _ h)
  | write _ ih => exact congrArg (Dialogue.write _ _) (funext ih)
  | read _ ih => exact congrArg (Dialogue.read _) (funext ih)

theorem Lockstep.conduct [Console σ] {waived : α → Prop} {R : α → β → Prop} {d : Dialogue α}
    {e : Dialogue β} (h : d.Lockstep waived R e) (console : σ) :
    waived (d.conduct console).1 ∨
      R (d.conduct console).1 (e.conduct console).1 ∧
        (d.conduct console).2 = (e.conduct console).2 := by
  induction h generalizing console with
  | waived h => exact .inl h
  | done h => exact .inr ⟨h, rfl⟩
  | write _ ih => exact ih _ _
  | read _ ih => exact ih _ _

end Dialogue

end Arrow
