import Arrow.Proofs.Evaluation.Agreement

/-!
# Outcomes of runs

`RunsTo config source console result after` says that the run of a source text ends: with some
number of rounds granted to its loops it gives the result and leaves the console as `after`. More
rounds make no difference then, so a run has one outcome at most (`RunsTo.unique`); and it has the
same outcome under a relaxed configuration unless it fails for a reason that is waived
(`RunsTo.relax`).
-/

namespace Arrow

/-! ## Programs in two contexts -/

variable {waived : Halt → Prop} {ctx ctx' : Context}

theorem Environment.AgreeOn.eq {e e' : Environment} (h : e.AgreeOn .univ e') : e = e' :=
  ext_get? fun name => h name trivial

/-- A state agrees with itself on all names. -/
theorem State.agree_univ (state : State) : State.Agree .univ .univ .univ state state :=
  ⟨fun _ _ => rfl, rfl, state.functions.confinedTo_univ, rfl⟩

theorem State.Agree.eq {s t : State} (h : State.Agree .univ .univ .univ s t) : s = t := by
  obtain ⟨environment, functions, depth⟩ := s
  obtain ⟨environment', functions', depth'⟩ := t
  obtain rfl : environment = environment' := h.environment.eq
  obtain rfl : functions = functions' := h.functions
  obtain rfl : depth = depth' := h.depth
  rfl

/-- Held from the same state with the same console, two actions that run alike come to the same. -/
theorem Action.Alike.conduct {σ α : Type} [Console σ] {waived : Halt → Prop} {a b : Action α}
    (h : Action.Alike waived (State.Agree .univ .univ .univ) a b) (state : State) (console : σ) :
    Action.Stopped waived ((a.perform state).conduct console).1 ∨
      (a.perform state).conduct console = (b.perform state).conduct console := by
  rcases (h state state state.agree_univ).conduct console with
    hstopped | ⟨⟨hresult, hafter⟩, hconsole⟩
  · exact .inl hstopped
  · exact .inr (Prod.ext (Prod.ext hresult hafter.eq) hconsole)

namespace Program

theorem alike_runBody (hctx : Context.Alike waived .univ .univ .univ ctx ctx')
    (statements : List Statement) :
    Action.Alike waived (State.Agree .univ .univ .univ)
      (runBody ctx statements) (runBody ctx' statements) := by
  induction statements with
  | nil => exact Action.alike_pure _
  | cons statement statements ih =>
    refine (statement.alike_run hctx statement.confinedTo_univ).bind fun flow => ?_
    cases flow with
    | normal => exact ih
    | returned value p => exact Action.alike_fail _

theorem alike_runEntryPoint (hctx : Context.Alike waived .univ .univ .univ ctx ctx') :
    Action.Alike waived (State.Agree .univ .univ .univ)
      (runEntryPoint ctx) (runEntryPoint ctx') := by
  refine Action.alike_functions_bind fun functions _ => ?_
  cases functions.find? "main" with
  | some main =>
    dsimp only
    split
    · exact (hctx.call "main" trivial [] main.position).bind fun _ => Action.alike_pure _
    · exact Action.alike_fail _
  | none =>
    dsimp only
    rcases hctx.config.entryPoint with hsame | ⟨halways, hwaived⟩
    · rw [hsame]
      split
      · exact Action.alike_fail _
      · exact Action.alike_pure _
    · rw [halways]
      exact Action.alike_fail_of_waived (hwaived .absent) _

theorem alike_run (hctx : Context.Alike waived .univ .univ .univ ctx ctx') (program : Program) :
    Action.Alike waived (State.Agree .univ .univ .univ) (program.run ctx) (program.run ctx') := by
  refine (alike_runBody hctx program.body).bind fun _ => (alike_runEntryPoint hctx).bind fun _ => ?_
  rw [← bind_pure Action.environment]
  refine Action.alike_environment_bind fun e e' hagree => ?_
  rw [hagree.eq]
  exact Action.alike_pure e'

end Program

/-! ## Source texts -/

variable {config config' : Config}

theorem Context.alike_outermost (hconfig : config.Relaxed waived config') {rounds rounds' : Nat}
    (hrounds : Action.Raised (waived .exhausted) rounds rounds') :
    Context.Alike waived .univ .univ .univ (.outermost config rounds)
      (.outermost config' rounds') :=
  ⟨hconfig, hrounds, alike_invoke hconfig hrounds hconfig.limit (subset_refl _)⟩

theorem runSource_lockstep (hconfig : config.Relaxed waived config') {rounds rounds' : Nat}
    (hrounds : Action.Raised (waived .exhausted) rounds rounds') (source : String) :
    (runSource config rounds source).Lockstep
      (fun result => ∃ halt, result = .error halt ∧ waived halt) Eq
      (runSource config' rounds' source) := by
  unfold runSource
  split
  · exact .done rfl
  · split
    · exact .done rfl
    · rename_i program _
      have hrun := program.alike_run (Context.alike_outermost hconfig hrounds) .initial .initial
        (State.agree_univ .initial)
      refine hrun.bind ?_ ?_
      · rintro ⟨_, after⟩ hstopped e
        exact .waived hstopped
      · rintro ⟨result, after⟩ ⟨other, after'⟩ ⟨hresult, _⟩
        exact .done hresult

/-- The run of the source text ends with the result and leaves the console as `after`. -/
def RunsTo {σ : Type} [Console σ] (config : Config) (source : String) (console : σ)
    (result : Except Error Environment) (after : σ) : Prop :=
  ∃ rounds, (runSource config rounds source).conduct console = (result.mapError .error, after)

namespace RunsTo

variable {σ : Type} [Console σ] {source : String} {console : σ}
  {result result' : Except Error Environment} {after after' : σ}

theorem mapError_ne_exhausted (result : Except Error Environment) :
    result.mapError Halt.error ≠ .error .exhausted := by
  cases result <;> simp [Except.mapError]

theorem mapError_injective (h : result.mapError Halt.error = result'.mapError Halt.error) :
    result = result' := by
  cases result <;> cases result' <;> simp_all [Except.mapError]

/-- A run that has ended is not changed by more rounds. -/
theorem conduct_of_le {rounds rounds' : Nat} (hle : rounds ≤ rounds')
    (h : (runSource config rounds source).conduct console = (result.mapError .error, after)) :
    (runSource config rounds' source).conduct console = (result.mapError .error, after) := by
  have hrounds : Action.Raised ((· = Halt.exhausted) .exhausted) rounds rounds' :=
    ⟨hle, fun _ => rfl⟩
  have hboth := (runSource_lockstep (.refl _ config) hrounds source).conduct console
  rw [h] at hboth
  rcases hboth with ⟨halt, hhalt, rfl⟩ | ⟨hresult, hafter⟩
  · exact absurd hhalt (mapError_ne_exhausted result)
  · exact Prod.ext hresult.symm hafter.symm

theorem unique (h : RunsTo config source console result after)
    (h' : RunsTo config source console result' after') : result = result' ∧ after = after' := by
  obtain ⟨rounds, hrun⟩ := h
  obtain ⟨rounds', hrun'⟩ := h'
  have hsame : (result.mapError Halt.error, after) = (result'.mapError Halt.error, after') := by
    rw [← conduct_of_le (Nat.le_max_left rounds rounds') hrun,
      ← conduct_of_le (Nat.le_max_right rounds rounds') hrun']
  obtain ⟨hresult, hafter⟩ := Prod.mk.inj hsame
  exact ⟨mapError_injective hresult, hafter⟩

theorem relax (hconfig : config.Relaxed waived config')
    (h : RunsTo config source console result after)
    (hresult : ∀ cause, result = .error cause → ¬ waived (.error cause)) :
    RunsTo config' source console result after := by
  obtain ⟨rounds, hrun⟩ := h
  refine ⟨rounds, ?_⟩
  have hboth := (runSource_lockstep hconfig (.refl _ rounds) source).conduct console
  rw [hrun] at hboth
  rcases hboth with ⟨halt, hhalt, hwaived⟩ | ⟨hsame, hafter⟩
  · cases result with
    | ok environment => exact nomatch hhalt
    | error cause =>
      obtain rfl : Halt.error cause = halt := Except.error.inj hhalt
      exact absurd hwaived (hresult cause rfl)
  · exact Prod.ext hsame.symm hafter.symm

end RunsTo

end Arrow
