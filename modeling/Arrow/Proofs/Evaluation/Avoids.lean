import Arrow.Evaluation.Program
import Arrow.Proofs.Action.Avoids

/-!
# What declarations and calls do not stop for

For an invariant `I` of states that does not depend on bindings, declarations avoid a failure if the
checks in them do (`avoids_declare`, `avoids_define`), and a call does if moreover the bodies of the
functions do that are found in a state in `I` (`Calling.avoids_dispatch`).
-/

namespace Arrow

variable {bad : Halt → Prop} {I : State → Prop}

theorem avoids_declare {name : String} {value : Value} {kind : Mutability} {p : Position}
    (hbad : ∀ (environment : Environment) cause,
      environment.declare name value kind p = .error cause → ¬ bad (.error (.runtime cause)))
    (hI : ∀ state environment, I state → I { state with environment := environment }) :
    Action.Avoids bad I (do
      let environment ← Action.check ((← Action.environment).declare name value kind p)
      Action.rebind environment
      pure Flow.normal) :=
  Action.avoids_environment.bind fun _ => (Action.avoids_check (hbad _)).bind fun environment =>
    (Action.avoids_rebind fun state => hI state environment).bind fun _ => Action.avoids_pure _

theorem avoids_define {ctx : Context} {definition : Function}
    (hbad : ∀ (functions : FunctionTable) cause,
      functions.declare definition = .error cause → ¬ bad (.error (.runtime cause)))
    (hI : ∀ state functions, I state → state.functions.declare definition = .ok functions →
      I { state with functions := functions }) :
    ((Statement.function definition).run ctx).Avoids bad I := by
  intro state hstate
  show (Action.perform (Action.functions >>= _) state).Ends _
  rw [Action.perform_functions_bind]
  cases hdeclare : state.functions.declare definition with
  | error cause => exact Action.avoids_fail (α := Flow) (hbad _ cause hdeclare) state hstate
  | ok functions => exact ⟨fun _ _ => nofun, hI state functions hstate hdeclare⟩

theorem Calling.avoids_dispatch {config : Config}
    {body : Function → Environment → Position → Action Value}
    (hbuiltin : ∀ (builtin : Builtin) args p, (builtin.call args p).Avoids bad I)
    (hundefined : ∀ name p, ¬ bad (.error (.runtime (.undefinedFunction name p))))
    (hframe : ∀ (f : Function) args p environment cause,
      f.frame args p environment = .error cause → ¬ bad (.error (.runtime cause)))
    (hoverflow : ∀ name p, ¬ bad (.error (.runtime (.stackOverflow name config.maxCallDepth p))))
    (hbody : ∀ state name f, I state → state.functions.find? name = some f →
      state.depth < config.maxCallDepth → ∀ frame p, (body f frame p).Avoids bad I)
    (name : String) (args : List Value) (p : Position) :
    (dispatch config body name args p).Avoids bad I := by
  unfold dispatch
  split
  · exact hbuiltin _ args p
  · intro state hstate
    rw [Action.perform_functions_bind]
    split
    case h_1 => exact Action.avoids_fail (α := Value) (hundefined name p) state hstate
    case h_2 f hf =>
      rw [Action.perform_environment_bind]
      cases hframe' : f.frame args p state.environment with
      | error cause =>
        exact Action.avoids_fail (α := Value) (hframe _ _ _ _ _ hframe') state hstate
      | ok frame =>
        rw [Action.check_ok, pure_bind, Action.perform_depth_bind]
        split
        case isTrue => exact Action.avoids_fail (α := Value) (hoverflow name p) state hstate
        case isFalse hlt =>
          exact hbody state name f hstate hf (Nat.not_le.1 hlt) frame p state hstate

theorem Program.avoids_runEntryPoint {ctx : Context}
    (hcall : ∀ name args p, (ctx.call name args p).Avoids bad I)
    (hmissing : ∀ fault, ¬ bad (.error (.runtime (.missingEntryPoint fault)))) :
    (runEntryPoint ctx).Avoids bad I := by
  refine Action.avoids_functions.bind fun functions => ?_
  split
  · split
    · exact (hcall _ _ _).bind fun _ => Action.avoids_pure _
    · exact Action.avoids_fail (hmissing _)
  · split
    · exact Action.avoids_fail (hmissing _)
    · exact Action.avoids_pure _

end Arrow
