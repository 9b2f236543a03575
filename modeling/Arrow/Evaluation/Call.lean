import Arrow.Evaluation.Statement

/-!
# Calling functions

A call of a declared function runs its body in the present environment, overlaid with the
parameters, unless too many calls are active. `invoke` calls functions by recursion on the number
of calls that may still be nested.
-/

namespace Arrow

/--
The environment for the body of the function `name`: the present one, overlaid with the parameters
from left to right. The type of each argument is checked before it is bound.
-/
def Function.overlayAll (name : String) (p : Position) :
    List Parameter → List Value → Environment → Except RuntimeError Environment
  | param :: params, arg :: args, environment => do
    checkDeclared param.type arg s!"Parameter '{param.name}' of '{name}'" p
    overlayAll name p params args (environment.overlay param.name arg param.mutability)
  | _, _, environment => .ok environment

/-- The environment for the body of a function that is called with the given arguments. -/
def Function.frame (f : Function) (args : List Value) (p : Position) (environment : Environment) :
    Except RuntimeError Environment :=
  if args.length = f.params.length then overlayAll f.name p f.params args environment
  else .error (.argumentCount f.name (.exactly f.params.length) args.length p)

/-- The value of a call, by how the body of the function ends. -/
def Flow.value : Flow → Value
  | normal => .null
  | returned value _ => value

/-- Runs the body of a function in the given frame, and checks the value that it returns. -/
def Function.run (ctx : Context) (frame : Environment) (p : Position) (f : Function) :
    Action Value := do
  let flow ← Action.within frame (Statement.runAll ctx f.body)
  Action.check (checkDeclared f.returnType flow.value s!"Function '{f.name}'" p)
  pure flow.value

/--
Calls the function `name`. The body of a declared one is left to `body`; it is refused when as many
calls are active as the configuration allows.
-/
def Calling.dispatch (config : Config) (body : Function → Environment → Position → Action Value) :
    Calling := fun name args p =>
  match Builtin.ofName? name with
  | some builtin => builtin.call args p
  | none => do
    match (← Action.functions).find? name with
    | none => Action.fail (.undefinedFunction name p)
    | some f =>
      let frame ← Action.check (f.frame args p (← Action.environment))
      if config.maxCallDepth ≤ (← Action.depth) then
        Action.fail (.stackOverflow name config.maxCallDepth p)
      else body f frame p

/-- A call that is refused for no reason runs the body in the frame for its arguments. -/
theorem Calling.perform_dispatch {config : Config}
    {body : Function → Environment → Position → Action Value} {name : String} {args : List Value}
    {p : Position} {state : State} {f : Function} {frame : Environment}
    (hbuiltin : Builtin.ofName? name = none) (hfind : state.functions.find? name = some f)
    (hframe : f.frame args p state.environment = .ok frame)
    (hdepth : state.depth < config.maxCallDepth) :
    (dispatch config body name args p).perform state = (body f frame p).perform state := by
  unfold dispatch
  rw [hbuiltin, Action.perform_functions_bind, hfind]
  dsimp only
  rw [Action.perform_environment_bind, hframe, Action.check_ok, pure_bind,
    Action.perform_depth_bind, if_neg (Nat.not_le.2 hdepth)]

/--
Calls functions, when `calls` more calls of declared functions may be nested. When the outermost
statements run, no call is active and all that the configuration allows may be nested.
-/
def invoke (config : Config) (rounds : Nat) : Nat → Calling
  | 0 => .dispatch config fun f _ p => Action.fail (.stackOverflow f.name config.maxCallDepth p)
  | calls + 1 => .dispatch config fun f frame p =>
    f.run ⟨config, rounds, invoke config rounds calls⟩ frame p

/-- What the outermost statements of a program depend on. -/
def Context.outermost (config : Config) (rounds : Nat) : Context :=
  ⟨config, rounds, invoke config rounds config.maxCallDepth⟩

end Arrow
