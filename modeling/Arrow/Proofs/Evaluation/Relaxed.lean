import Arrow.Config
import Arrow.Proofs.Action.Alike

/-!
# Relaxed configurations

`config.Relaxed waived config'` says that `config'` demands no more of a program than `config`: as
many calls or more may be active, assignments may declare names, an entry point may be missing. The
failures for which there is no reason any more under `config'` are waived.
-/

namespace Arrow

/-- The second configuration demands the same, or less where failing the demand is waived. -/
structure Config.Relaxed (waived : Halt → Prop) (config config' : Config) : Prop where
  limit : Action.Raised
    (∀ name p, waived (.error (.runtime (.stackOverflow name config.maxCallDepth p))))
    config.maxCallDepth config'.maxCallDepth
  assignment : config.assignment = config'.assignment ∨ config.assignment = .reject ∧
    ∀ name p, waived (.error (.runtime (.undefinedVariable name p)))
  entryPoint : config.entryPoint = config'.entryPoint ∨ config.entryPoint = .always ∧
    ∀ reason, waived (.error (.runtime (.missingEntryPoint reason)))

namespace Config

theorem Relaxed.refl (waived : Halt → Prop) (config : Config) : config.Relaxed waived config :=
  ⟨.refl _ _, .inl rfl, .inl rfl⟩

variable {α : Type} {waived : Halt → Prop} {R : State → State → Prop} {config config' : Config}

theorem Relaxed.alike_stackOverflow (h : config.Relaxed waived config') (name : String)
    (p : Position) :
    Action.Alike waived R (Action.fail (.stackOverflow name config.maxCallDepth p) : Action α)
      (Action.fail (.stackOverflow name config'.maxCallDepth p)) := by
  rcases Nat.eq_or_lt_of_le h.limit.le with heq | hlt
  · rw [heq]
    exact Action.alike_fail _
  · exact Action.alike_fail_of_waived (h.limit.waived_of_lt hlt name p) _

/-- What is refused only with as many active calls as are allowed, and runs alike if it is not. -/
theorem Relaxed.alike_limited (h : config.Relaxed waived config') (name : String) (p : Position)
    (depth : Nat) {body body' : Action α} (hbody : Action.Alike waived R body body') :
    Action.Alike waived R
      (if config.maxCallDepth ≤ depth then
        Action.fail (.stackOverflow name config.maxCallDepth p) else body)
      (if config'.maxCallDepth ≤ depth then
        Action.fail (.stackOverflow name config'.maxCallDepth p) else body') := by
  by_cases hrefused : config.maxCallDepth ≤ depth
  · rw [if_pos hrefused]
    split
    · exact h.alike_stackOverflow name p
    · have hlt : config.maxCallDepth < config'.maxCallDepth := by omega
      exact Action.alike_fail_of_waived (h.limit.waived_of_lt hlt name p) _
  · have hle := h.limit.le
    rw [if_neg hrefused, if_neg (by omega)]
    exact hbody

end Config

end Arrow
