import Arrow.Proofs.Evaluation.Nodes

/-!
# Properties of actions that compose

A property of actions is sequential if the single steps of expressions have it and sequences inherit
it. An expression then has the property as soon as calls have it, and so have statements, if the
writing of bindings and the rounds of loops have it. If the reading of the function table has the
property, too, then it is compositional, and the calls themselves and the entry point have it.
-/

namespace Arrow

/-- Steps that do not look at functions have the property, and a sequence does if its parts do. -/
structure Action.Sequential (P : (α : Type) → Action α → Prop) : Prop where
  pure : ∀ {α : Type} (value : α), P α (pure value)
  fail : ∀ {α : Type} (cause : RuntimeError), P α (Action.fail cause)
  environment : P Environment Action.environment
  depth : P Nat Action.depth
  write : ∀ (text : String) (p : Position), P Unit (Action.write text p)
  readLine : ∀ p : Position, P (Option String) (Action.readLine p)
  bind : ∀ {α β : Type} {action : Action α} {next : α → Action β}, P α action →
    (∀ value, P β (next value)) → P β (action >>= next)

/-- Moreover the function table may be read. -/
structure Action.Compositional (P : (α : Type) → Action α → Prop) : Prop extends
    Action.Sequential P where
  functions : P FunctionTable Action.functions

namespace Action.Sequential

variable {P : (α : Type) → Action α → Prop} (h : Sequential P)

include h

theorem check {α : Type} (result : Except RuntimeError α) : P α (Action.check result) := by
  cases result with
  | ok value => exact h.pure value
  | error cause => exact h.fail cause

theorem builtin (builtin : Builtin) (args : List Value) (p : Position) :
    P Value (builtin.call args p) := by
  have read : P Value (Builtin.readValue p) :=
    h.bind (h.readLine p) fun line => by cases line <;> exact h.pure _
  unfold Builtin.call
  split
  · exact h.bind (h.write _ p) fun _ => h.pure _
  · exact h.bind (h.write _ p) fun _ => h.pure _
  · exact read
  · exact h.bind (h.write _ p) fun _ => read
  · exact h.check _
  · exact h.pure _
  · exact h.fail _

end Action.Sequential

/-- Every call has the property. -/
def Calling.Within (P : (α : Type) → Action α → Prop) (call : Calling) : Prop :=
  ∀ name args p, P Value (call name args p)

section

variable {P : (α : Type) → Action α → Prop} {call : Calling} {ctx : Context}

namespace Action.Sequential

theorem evalRules (h : Sequential P) (hcall : call.Within P) :
    EvalRules P call fun _ => True where
  pure := h.pure
  bind := h.bind
  var := by
    intro name p _
    refine h.bind h.environment fun environment => ?_
    cases environment.get? name with
    | none => exact h.fail _
    | some binding => exact h.pure _
  binary _ _ _ := h.check _
  call _ args := hcall _ args _
  index _ _ _ := h.check _
  member _ _ := h.check _

/-- What statements need beyond expressions: to write a binding or a function, and to repeat. -/
theorem runRules {S : Statement → Prop} (h : Sequential P) (hcall : ctx.call.Within P)
    (hdeclare : ∀ name value kind p, P Flow (do
      let environment ← Action.check ((← Action.environment).declare name value kind p)
      Action.rebind environment
      return .normal))
    (hdefine : ∀ definition, S (.function definition) →
      P Flow ((Statement.function definition).run ctx))
    (hloop : ∀ {statement : Statement}, S statement → statement.IsLoop →
      ∀ {round : Action (Option Flow)}, P (Option Flow) round →
        P Flow (Action.loop ctx.rounds round)) :
    RunRules P ctx (fun _ => True) S where
  toEvalRules := h.evalRules hcall
  declaration _ value := h.bind (h.check _) fun _ => hdeclare _ value _ _
  target _ := h.bind h.environment fun _ => h.check _
  assignment _ value := hdeclare _ value .var _
  function hS _ := hdefine _ hS
  loop := hloop

end Action.Sequential

namespace Action.Compositional

/-- A call has the property if bodies have it. -/
theorem dispatch {config : Config} {body : Function → Environment → Position → Action Value}
    (h : Compositional P) (hbody : ∀ f frame p, P Value (body f frame p)) :
    (Calling.dispatch config body).Within P := by
  intro name args p
  unfold Calling.dispatch
  split
  · exact h.builtin _ args p
  · refine h.bind h.functions fun functions => ?_
    split
    · exact h.fail _
    · refine h.bind h.environment fun _ => h.bind (h.check _) fun frame => ?_
      refine h.bind h.depth fun _ => ?_
      split
      · exact h.fail _
      · exact hbody _ frame p

theorem runEntryPoint (h : Compositional P) (hcall : ctx.call.Within P) :
    P Unit (Program.runEntryPoint ctx) := by
  refine h.bind h.functions fun functions => ?_
  split
  · split
    · exact h.bind (hcall _ _ _) fun _ => h.pure _
    · exact h.fail _
  · split
    · exact h.fail _
    · exact h.pure _

theorem run {S : Statement → Prop} (h : Compositional P) (hcall : ctx.call.Within P)
    (hrules : RunRules P ctx (fun _ => True) S) {program : Program}
    (hall : program.All (fun _ => True) S) : P Environment (program.run ctx) :=
  h.bind (hrules.runBody (fun _ => h.fail _) program.body hall) fun _ =>
    h.bind (h.runEntryPoint hcall) fun _ => h.environment

end Action.Compositional

end

end Arrow
