import Arrow.Builtin
import Arrow.Config
import Arrow.Evaluation.Expression
import Arrow.Value.Typing

/-!
# Running statements

Statements run by recursion on their structure. A block ends early when one of its statements
returns, and a loop when its body or its update returns. Of all statements only loops can be
exhausted.
-/

namespace Arrow

/-- How a sequence of statements ends: it runs through, or returns a value at a position. -/
inductive Flow where
  | normal
  | returned (value : Value) (position : Position)

/-- What the statements of a program depend on. -/
structure Context where
  config : Config
  /-- How many rounds a loop may take. -/
  rounds : Nat
  call : Calling

/--
Checks that an assignment at `p` may write to a name. A name without a binding is declared by the
assignment, unless the configuration rejects that.
-/
def Environment.checkTarget (environment : Environment) (mode : AssignmentMode) (name : String)
    (p : Position) : Except RuntimeError Unit :=
  if mode = .reject ∧ (environment.get? name).isNone then .error (.undefinedVariable name p)
  else environment.ensureWritable name p

/-- Adds a function under a name that neither a declared nor a built-in function has. -/
def FunctionTable.declare (functions : FunctionTable) (definition : Function) :
    Except RuntimeError FunctionTable :=
  if (functions.find? definition.name).isSome then
    .error (.functionAlreadyDefined definition.name definition.position)
  else if (Builtin.ofName? definition.name).isSome then
    .error (.builtinRedefinition definition.name definition.position)
  else .ok (functions.insert definition)

theorem FunctionTable.eq_insert_of_declare {functions functions' : FunctionTable}
    {definition : Function} (h : functions.declare definition = .ok functions') :
    functions' = functions.insert definition := by
  unfold declare at h
  split at h
  · exact nomatch h
  · split at h
    · exact nomatch h
    · cases h
      rfl

namespace Flow

/-- Goes on after `first`, unless it returns. -/
def andThen (first second : Action Flow) : Action Flow := do
  match ← first with
  | .normal => second
  | .returned value p => pure (.returned value p)

/-- Repeats a body while a condition holds, unless the body returns. -/
def repeatWhile (rounds : Nat) (condition : Action Value) (body : Action Flow) : Action Flow :=
  Action.loop rounds do
    let value ← condition
    if value.isTruthy then
      match ← body with
      | .normal => pure none
      | .returned value p => pure (some (.returned value p))
    else pure (some .normal)

end Flow

namespace Statement

mutual

/-- Runs a statement. -/
def run (ctx : Context) : Statement → Action Flow
  | declaration kind name type init p => do
    let value ← init.eval ctx.call
    Action.check (checkDeclared type value s!"Variable '{name}'" p)
    let environment ← Action.check ((← Action.environment).declare name value kind p)
    Action.rebind environment
    pure .normal
  | assignment name expr p => do
    Action.check ((← Action.environment).checkTarget ctx.config.assignment name p)
    let value ← expr.eval ctx.call
    let environment ← Action.check ((← Action.environment).assign name value p)
    Action.rebind environment
    pure .normal
  | function definition => do
    let functions ← Action.check ((← Action.functions).declare definition)
    Action.redefine functions
    pure .normal
  | returnValue expr p => do
    let value ← expr.eval ctx.call
    pure (.returned value p)
  | expression expr _ => do
    let _ ← expr.eval ctx.call
    pure .normal
  | conditional branches otherwise _ => do
    match ← runBranches ctx branches with
    | some flow => pure flow
    | none => runOtherwise ctx otherwise
  | whileLoop condition body _ =>
    Flow.repeatWhile ctx.rounds (condition.eval ctx.call) (runAll ctx body)
  | forLoop init condition update body _ =>
    Flow.andThen (init.run ctx) (Flow.repeatWhile ctx.rounds (condition.eval ctx.call)
      (Flow.andThen (runAll ctx body) (update.run ctx)))

/-- Runs statements one after another until one returns. -/
def runAll (ctx : Context) : List Statement → Action Flow
  | [] => pure .normal
  | statement :: statements => Flow.andThen (statement.run ctx) (runAll ctx statements)

/-- Runs the first branch whose condition holds, if there is one. -/
def runBranches (ctx : Context) : List Branch → Action (Option Flow)
  | [] => pure none
  | ⟨condition, body⟩ :: branches => do
    let value ← condition.eval ctx.call
    if value.isTruthy then
      let flow ← runAll ctx body
      pure (some flow)
    else runBranches ctx branches

/-- Runs the statements for when no condition holds, if there are any. -/
def runOtherwise (ctx : Context) : Option (List Statement) → Action Flow
  | none => pure .normal
  | some body => runAll ctx body

end

end Statement

/-! ## Sequences and loops -/

namespace Flow

theorem andThen_pure_normal (first : Action Flow) : andThen first (pure .normal) = first := by
  refine (bind_congr fun flow => ?_).trans (bind_pure first)
  cases flow <;> rfl

theorem andThen_assoc (first second third : Action Flow) :
    andThen (andThen first second) third = andThen first (andThen second third) := by
  unfold andThen
  rw [bind_assoc]
  refine bind_congr fun flow => ?_
  cases flow with
  | normal => rfl
  | returned value p => exact pure_bind _ _

/-- A loop runs its body if the condition holds, and goes on with one round less. -/
theorem repeatWhile_succ (rounds : Nat) (condition : Action Value) (body : Action Flow) :
    repeatWhile (rounds + 1) condition body = condition >>= fun value =>
      if value.isTruthy then andThen body (repeatWhile rounds condition body)
      else pure .normal := by
  unfold repeatWhile
  rw [Action.loop_succ, bind_assoc]
  refine bind_congr fun value => ?_
  split
  · unfold andThen
    rw [bind_assoc]
    refine bind_congr fun flow => ?_
    cases flow with
    | normal => exact pure_bind _ _
    | returned value p => exact pure_bind _ _
  · exact pure_bind _ _

end Flow

namespace Statement

theorem runAll_singleton (ctx : Context) (statement : Statement) :
    runAll ctx [statement] = statement.run ctx :=
  Flow.andThen_pure_normal _

theorem runAll_append (ctx : Context) (statements others : List Statement) :
    runAll ctx (statements ++ others) =
      Flow.andThen (runAll ctx statements) (runAll ctx others) := by
  induction statements with
  | nil => rfl
  | cons statement statements ih =>
    rw [List.cons_append, runAll, ih, ← Flow.andThen_assoc]
    rfl

end Statement

end Arrow
