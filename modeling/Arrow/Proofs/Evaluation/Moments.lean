import Arrow.Dialogue.Console
import Arrow.Evaluation.Program
import Mathlib.Logic.Relation

/-!
# The moments of a run

A `Moment` is a point in the run of a program at which a part of it is about to run, with the
state, the console and the waiting callers of that point. `Leads` takes a moment to those that
follow it within its part: to the parts inside that run next, each from the state that the parts
before it have left, and from a call to the body of the function. So the moments come up that the
run of a program comes to (`VisitedBy`).
-/

namespace Arrow

/-! ## Operands -/

/-- The expressions that an expression evaluates before its own last step, in order. -/
def Expr.operands : Expr → List Expr
  | literal _ _ => []
  | var _ _ => []
  | not operand _ => [operand]
  | binary left _ right _ => [left, right]
  | call _ arguments _ => arguments
  | array elements _ => elements
  | object fields _ => fields.map (·.2)
  | index target selector _ => [target, selector]
  | member target _ _ => [target]

/-- The last step of an expression, for the values of its operands. -/
def Expr.finish (call : Calling) : Expr → List Value → Action Value
  | literal value _, _ => pure (.ofLiteral value)
  | var name p, _ => (var name p).eval call
  | not _ _, [value] => pure value.negated
  | binary _ op _ p, [a, b] => Action.check (Value.binary op a b p)
  | .call callee _ p, args => call callee args p
  | array _ _, values => pure (.array values)
  | object fields _, values => pure (.ofFields ((fields.map (·.1)).zip values))
  | index _ _ p, [a, i] => Action.check (Value.index a i p)
  | member _ property p, [a] => Action.check (Value.member a property p)
  | _, _ => pure .null

theorem Expr.evalFields_eq (call : Calling) (fields : List (String × Expr)) :
    evalFields call fields = evalAll call (fields.map (·.2)) >>= fun values =>
      pure ((fields.map (·.1)).zip values) := by
  induction fields with
  | nil => exact (pure_bind _ _).symm
  | cons field fields ih =>
    obtain ⟨key, expr⟩ := field
    rw [evalFields, List.map_cons, evalAll, ih]
    simp only [bind_assoc, pure_bind, List.map_cons, List.zip_cons_cons]

/-- An expression evaluates its operands, and then takes its last step. -/
theorem Expr.eval_eq (call : Calling) (expr : Expr) :
    expr.eval call = evalAll call expr.operands >>= expr.finish call := by
  cases expr with
  | literal _ _ => exact (pure_bind _ _).symm
  | var _ _ => exact (pure_bind _ _).symm
  | call _ _ _ => rfl
  | array _ _ => rfl
  | object fields _ =>
    rw [eval, evalFields_eq, bind_assoc]
    rfl
  | not _ _ | member _ _ _ => simp only [eval, operands, evalAll, finish, bind_assoc, pure_bind]
  | binary _ _ _ _ | index _ _ _ =>
    simp only [eval, operands, evalAll, finish, bind_assoc, pure_bind]

/-! ## Parts of programs -/

/-- What may run as a part of a program. -/
inductive Part where
  | program (program : Program)
  /-- Outermost statements. -/
  | outermost (statements : List Statement)
  | statements (statements : List Statement)
  | statement (statement : Statement)
  | branches (branches : List Branch)
  /-- A loop that may take so many more rounds. -/
  | loop (rounds : Nat) (condition : Expr) (body : List Statement)
  | exprs (exprs : List Expr)
  | expr (expr : Expr)
  | call (name : String) (args : List Value) (p : Position)

namespace Part

/-- What a part gives when it has run. -/
def Result : Part → Type
  | program _ => Environment
  | outermost _ => Unit
  | statements _ => Flow
  | statement _ => Flow
  | branches _ => Option Flow
  | loop _ _ _ => Flow
  | exprs _ => List Value
  | expr _ => Value
  | call _ _ _ => Value

/-- Runs a part. -/
def run (ctx : Context) : (part : Part) → Action part.Result
  | program whole => whole.run ctx
  | outermost body => Program.runBody ctx body
  | statements body => Statement.runAll ctx body
  | statement single => single.run ctx
  | branches cases => Statement.runBranches ctx cases
  | loop rounds condition body =>
    Flow.repeatWhile rounds (condition.eval ctx.call) (Statement.runAll ctx body)
  | exprs several => Expr.evalAll ctx.call several
  | expr single => single.eval ctx.call
  | call name args p => ctx.call name args p

/-- The part inside that runs first, if one does before anything else. -/
def first? (rounds : Nat) : Part → Option Part
  | program whole => some (outermost whole.body)
  | outermost (first :: _) => some (statement first)
  | statements (first :: _) => some (statement first)
  | statement (.declaration _ _ _ init _) => some (expr init)
  | statement (.returnValue value _) => some (expr value)
  | statement (.expression value _) => some (expr value)
  | statement (.conditional cases _ _) => some (branches cases)
  | statement (.whileLoop condition body _) => some (loop rounds condition body)
  | statement (.forLoop init _ _ _ _) => some (statement init)
  | branches (⟨condition, _⟩ :: _) => some (expr condition)
  | loop (_ + 1) condition _ => some (expr condition)
  | exprs (first :: _) => some (expr first)
  | expr single => some (exprs single.operands)
  | _ => none

end Part

/-! ## Moments -/

/-- A point at which a part of a program is about to run. -/
structure Moment (σ : Type) where
  part : Part
  state : State
  console : σ
  /-- How many more calls of declared functions may be nested. -/
  calls : Nat
  /-- The environments of the calls that wait for the present one to end, the latest first. -/
  callers : List Environment

namespace Moment

variable {σ : Type} [Console σ]

/-- The moment before anything has run. -/
def start (config : Config) (program : Program) (console : σ) : Moment σ :=
  ⟨.program program, .initial, console, config.maxCallDepth, []⟩

/-- The same point, at which a part inside is about to run. -/
def now (m : Moment σ) (part : Part) : Moment σ :=
  { m with part := part }

/-- The point at which `part` is about to run, from the state and with the console given. -/
def later (m : Moment σ) (part : Part) (state : State) (console : σ) : Moment σ :=
  { m with part := part, state := state, console := console }

/-- What the part depends on that is about to run. -/
def context (config : Config) (rounds : Nat) (m : Moment σ) : Context :=
  ⟨config, rounds, invoke config rounds m.calls⟩

/-- The action gives `value` from here, and leaves a state and a console. -/
def Gives {α : Type} (m : Moment σ) (action : Action α) (value : α) (after : State) (left : σ) :
    Prop :=
  (action.perform m.state).conduct m.console = ((.ok value, after), left)

/-- What is still to be held with the console until the part has run. -/
def run (config : Config) (rounds : Nat) (m : Moment σ) :
    Dialogue (Except Halt m.part.Result × State) :=
  (m.part.run (m.context config rounds)).perform m.state

/-- How a moment leads to one that follows it while its part runs. -/
inductive Leads (config : Config) (rounds : Nat) : Moment σ → Moment σ → Prop
  | first {m : Moment σ} {part : Part} (h : m.part.first? rounds = some part) :
    Leads config rounds m (m.now part)
  /-- The entry point is called when the outermost statements have run. -/
  | entryPoint {m : Moment σ} {program : Program} {after : State} {left : σ} {main : Function}
    (h : m.part = .program program)
    (hbody : m.Gives (Program.runBody (m.context config rounds) program.body) () after left)
    (hmain : after.functions.find? "main" = some main) (hparams : main.params.isEmpty) :
    Leads config rounds m (m.later (.call "main" [] main.position) after left)
  | outermost {m : Moment σ} {statement : Statement} {statements : List Statement} {after : State}
    {left : σ} (h : m.part = .outermost (statement :: statements))
    (hfirst : m.Gives (statement.run (m.context config rounds)) .normal after left) :
    Leads config rounds m (m.later (.outermost statements) after left)
  | statements {m : Moment σ} {statement : Statement} {statements : List Statement} {after : State}
    {left : σ} (h : m.part = .statements (statement :: statements))
    (hfirst : m.Gives (statement.run (m.context config rounds)) .normal after left) :
    Leads config rounds m (m.later (.statements statements) after left)
  /-- The value of an assignment is evaluated when its target has been checked. -/
  | assignment {m : Moment σ} {name : String} {value : Expr} {p : Position}
    (h : m.part = .statement (.assignment name value p))
    (htarget : m.state.environment.checkTarget config.assignment name p = .ok ()) :
    Leads config rounds m (m.now (.expr value))
  | otherwise {m : Moment σ} {branches : List Branch} {body : List Statement} {p : Position}
    {after : State} {left : σ} (h : m.part = .statement (.conditional branches (some body) p))
    (hbranches : m.Gives (Statement.runBranches (m.context config rounds) branches) none after
      left) :
    Leads config rounds m (m.later (.statements body) after left)
  /-- The update of a loop runs as the end of its body. -/
  | forLoop {m : Moment σ} {init update : Statement} {condition : Expr} {body : List Statement}
    {p : Position} {after : State} {left : σ}
    (h : m.part = .statement (.forLoop init condition update body p))
    (hinit : m.Gives (init.run (m.context config rounds)) .normal after left) :
    Leads config rounds m (m.later (.loop rounds condition (body ++ [update])) after left)
  | branch {m : Moment σ} {condition : Expr} {body : List Statement} {branches : List Branch}
    {value : Value} {after : State} {left : σ}
    (h : m.part = .branches (⟨condition, body⟩ :: branches))
    (hcondition : m.Gives (condition.eval (m.context config rounds).call) value after left)
    (hvalue : value.isTruthy = true) :
    Leads config rounds m (m.later (.statements body) after left)
  | branches {m : Moment σ} {condition : Expr} {body : List Statement} {branches : List Branch}
    {value : Value} {after : State} {left : σ}
    (h : m.part = .branches (⟨condition, body⟩ :: branches))
    (hcondition : m.Gives (condition.eval (m.context config rounds).call) value after left)
    (hvalue : value.isTruthy = false) :
    Leads config rounds m (m.later (.branches branches) after left)
  | round {m : Moment σ} {granted : Nat} {condition : Expr} {body : List Statement} {value : Value}
    {after : State} {left : σ} (h : m.part = .loop (granted + 1) condition body)
    (hcondition : m.Gives (condition.eval (m.context config rounds).call) value after left)
    (hvalue : value.isTruthy = true) :
    Leads config rounds m (m.later (.statements body) after left)
  | loop {m : Moment σ} {granted : Nat} {condition : Expr} {body : List Statement} {value : Value}
    {after after' : State} {left left' : σ} (h : m.part = .loop (granted + 1) condition body)
    (hcondition : m.Gives (condition.eval (m.context config rounds).call) value after left)
    (hvalue : value.isTruthy = true)
    (hbody : (m.later (.statements body) after left).Gives
      (Statement.runAll (m.context config rounds) body) .normal after' left') :
    Leads config rounds m (m.later (.loop granted condition body) after' left')
  | exprs {m : Moment σ} {expr : Expr} {exprs : List Expr} {value : Value} {after : State}
    {left : σ} (h : m.part = .exprs (expr :: exprs))
    (hfirst : m.Gives (expr.eval (m.context config rounds).call) value after left) :
    Leads config rounds m (m.later (.exprs exprs) after left)
  | arguments {m : Moment σ} {name : String} {arguments : List Expr} {p : Position}
    {args : List Value} {after : State} {left : σ} (h : m.part = .expr (.call name arguments p))
    (hargs : m.Gives (Expr.evalAll (m.context config rounds).call arguments) args after left) :
    Leads config rounds m (m.later (.call name args p) after left)
  /-- A call of a declared function runs its body in a frame of its own, with one call less. -/
  | body {m : Moment σ} {name : String} {args : List Value} {p : Position} {f : Function}
    {frame : Environment} {calls : Nat} (h : m.part = .call name args p)
    (hbuiltin : Builtin.ofName? name = none) (hfind : m.state.functions.find? name = some f)
    (hframe : f.frame args p m.state.environment = .ok frame)
    (hdepth : m.state.depth < config.maxCallDepth) (hcalls : m.calls = calls + 1) :
    Leads config rounds m
      ⟨.statements f.body, { m.state with environment := frame, depth := m.state.depth + 1 },
        m.console, calls, m.state.environment :: m.callers⟩

/-- The moment comes up in the run of a program with a console. -/
def VisitedBy (m : Moment σ) (config : Config) (rounds : Nat) (program : Program) (console : σ) :
    Prop :=
  Relation.ReflTransGen (Leads config rounds) (start config program console) m

end Moment

/-! ## What is done at a moment -/

section

variable {ctx : Context} {state : State}

theorem Program.perform_runEntryPoint_bind {α : Type} {main : Function} (next : Action α)
    (hmain : state.functions.find? "main" = some main) (hparams : main.params.isEmpty = true) :
    (runEntryPoint ctx >>= fun _ => next).perform state =
      (ctx.call "main" [] main.position >>= fun _ => next).perform state := by
  unfold runEntryPoint
  rw [bind_assoc, Action.perform_functions_bind, hmain]
  dsimp only
  rw [if_pos hparams, bind_assoc]
  rfl

theorem Statement.perform_assignment {name : String} {expr : Expr} {p : Position}
    (htarget : state.environment.checkTarget ctx.config.assignment name p = .ok ()) :
    ((assignment name expr p).run ctx).perform state =
      (expr.eval ctx.call >>= fun value => do
        let environment ← Action.check ((← Action.environment).assign name value p)
        Action.rebind environment
        pure Flow.normal).perform state := by
  unfold run
  rw [Action.perform_environment_bind, htarget]
  rfl

theorem Part.run_loop_append (rounds : Nat) (condition : Expr) (body : List Statement)
    (update : Statement) :
    Flow.repeatWhile rounds (condition.eval ctx.call)
        (Flow.andThen (Statement.runAll ctx body) (update.run ctx)) =
      (loop rounds condition (body ++ [update])).run ctx := by
  show _ = Flow.repeatWhile _ _ (Statement.runAll ctx (body ++ [update]))
  rw [Statement.runAll_append, Statement.runAll_singleton]

end

end Arrow
