import Arrow.Proofs.Evaluation.Outcome
import Mathlib

/-!
# Lower demands keep outcomes

A configuration matters to a run only where it makes the run fail. So an outcome stays the same when
more calls are allowed, unless it is that there were too many, and when the entry point and the
declarations of names are no longer demanded, unless it is that one of these is missing.
-/

namespace Arrow

variable {σ : Type} [Console σ] {source : String} {console after : σ}
  {result : Except Error Environment}

/-- A run that does not fail by a call too many has the same outcome when more calls are allowed. -/
theorem RunsTo.raise_limit {config : Config} {limit limit' : Nat} (hle : limit ≤ limit')
    (h : RunsTo { config with maxCallDepth := limit } source console result after)
    (hresult : ∀ name p, result ≠ .error (.runtime (.stackOverflow name limit p))) :
    RunsTo { config with maxCallDepth := limit' } source console result after := by
  have hconfig : Config.Relaxed
      (fun halt => ∃ name p, halt = .error (.runtime (.stackOverflow name limit p)))
      { config with maxCallDepth := limit } { config with maxCallDepth := limit' } :=
    ⟨⟨hle, fun _ name p => ⟨name, p, rfl⟩⟩, .inl rfl, .inl rfl⟩
  refine h.relax hconfig ?_
  rintro cause rfl ⟨name, p, hcause⟩
  cases hcause
  exact hresult name p rfl

/-- The entry point, a function and its own call are three active calls. -/
theorem runsTo_raise_limit_of_three :
    3 ≤ 5 ∧
      RunsTo { Config.standard with maxCallDepth := 3 }
        "<fn>f(n){print(n)if n{f(0)}}<fn>main(){f(1)}" (⟨[], ""⟩ : Transcript)
        (.ok .empty) ⟨[], "1\n0\n"⟩ ∧
      RunsTo { Config.standard with maxCallDepth := 5 }
        "<fn>f(n){print(n)if n{f(0)}}<fn>main(){f(1)}" (⟨[], ""⟩ : Transcript)
        (.ok .empty) ⟨[], "1\n0\n"⟩ := by
  have hrun : RunsTo { Config.standard with maxCallDepth := 3 }
      "<fn>f(n){print(n)if n{f(0)}}<fn>main(){f(1)}" (⟨[], ""⟩ : Transcript)
      (.ok .empty) ⟨[], "1\n0\n"⟩ := ⟨0, by cbv⟩
  exact ⟨by decide, hrun, hrun.raise_limit (by decide) (by rintro name p ⟨⟩)⟩

/--
What a run under the strictest demands comes to, a missing entry point or a name without a binding
apart, it comes to under all other demands as well.
-/
theorem RunsTo.drop_strictness {limit : Nat}
    (h : RunsTo ⟨.always, .reject, limit⟩ source console result after)
    (hentry : ∀ reason, result ≠ .error (.runtime (.missingEntryPoint reason)))
    (hname : ∀ name p, result ≠ .error (.runtime (.undefinedVariable name p)))
    (entryPoint : EntryPoint) (assignment : AssignmentMode) :
    RunsTo ⟨entryPoint, assignment, limit⟩ source console result after := by
  have hconfig : Config.Relaxed
      (fun halt => (∃ reason, halt = .error (.runtime (.missingEntryPoint reason))) ∨
        ∃ name p, halt = .error (.runtime (.undefinedVariable name p)))
      ⟨.always, .reject, limit⟩ ⟨entryPoint, assignment, limit⟩ :=
    ⟨.refl _ _, .inr ⟨rfl, fun name p => .inr ⟨name, p, rfl⟩⟩,
      .inr ⟨rfl, fun reason => .inl ⟨reason, rfl⟩⟩⟩
  refine h.relax hconfig ?_
  rintro cause rfl (⟨reason, hcause⟩ | ⟨name, p, hcause⟩)
  · cases hcause
    exact hentry reason rfl
  · cases hcause
    exact hname name p rfl

/-- A script that declares what it assigns. -/
theorem runsTo_drop_strictness_of_declared :
    RunsTo ⟨.always, .reject, 1⟩ "<var>x x<==1<fn>main(){print(x)}" (⟨[], ""⟩ : Transcript)
        (.ok (Environment.empty.overlay "x" (.integer 1) .var)) ⟨[], "1\n"⟩ ∧
      RunsTo ⟨.whenFunctionsDeclared, .declare, 1⟩ "<var>x x<==1<fn>main(){print(x)}"
        (⟨[], ""⟩ : Transcript) (.ok (Environment.empty.overlay "x" (.integer 1) .var))
        ⟨[], "1\n"⟩ := by
  have hrun : RunsTo ⟨.always, .reject, 1⟩ "<var>x x<==1<fn>main(){print(x)}"
      (⟨[], ""⟩ : Transcript) (.ok (Environment.empty.overlay "x" (.integer 1) .var))
      ⟨[], "1\n"⟩ := ⟨0, by cbv⟩
  exact ⟨hrun, hrun.drop_strictness (by rintro reason ⟨⟩) (by rintro name p ⟨⟩) _ _⟩

end Arrow
