import Arrow.Dialogue
import Arrow.Environment
import Arrow.Error
import Arrow.FunctionTable

/-!
# Actions

Running a part of a program is an action: it may talk with the console, change the state of the
program, and stop early. The state is kept when an action stops. `Action.loop` is the only action
that can be exhausted.
-/

namespace Arrow

/-- The bindings in force, the functions declared so far and the number of calls that are active. -/
structure State where
  environment : Environment
  functions : FunctionTable
  /-- Counts the calls of declared functions that have begun and not ended. -/
  depth : Nat

/-- The state before anything has run. -/
def State.initial : State := ⟨.empty, .empty, 0⟩

/-- Why an action stops early: an error, or a loop that takes more rounds than are granted. -/
inductive Halt where
  | error (cause : Error)
  | exhausted

/-- What a part of a program does when it runs. -/
abbrev Action := ExceptT Halt (StateT State Dialogue)

namespace Action

variable {α β : Type}

/-- Runs an action from a state. -/
def perform (action : Action α) (state : State) : Dialogue (Except Halt α × State) :=
  action state

/-- Stops with an error. -/
def fail (cause : RuntimeError) : Action α :=
  throw (.error (.runtime cause))

/-- The value of a computation that does nothing else but fail. -/
def check (result : Except RuntimeError α) : Action α :=
  match result with
  | .ok value => pure value
  | .error cause => fail cause

/-- The bindings in force. -/
def environment : Action Environment := do
  return (← get).environment

/-- The functions declared so far. -/
def functions : Action FunctionTable := do
  return (← get).functions

/-- The number of calls that are active. -/
def depth : Action Nat := do
  return (← get).depth

/-- Replaces the environment. -/
def rebind (environment : Environment) : Action Unit :=
  modify fun state => { state with environment := environment }

/-- Replaces the function table. -/
def redefine (functions : FunctionTable) : Action Unit :=
  modify fun state => { state with functions := functions }

/-- Writes a text on behalf of a call at `p`. -/
def write (text : String) (p : Position) : Action Unit := do
  match ← (Dialogue.say text p : Dialogue (Except String Unit)) with
  | .ok _ => pure ()
  | .error reason => fail (.io reason p)

/-- Reads a line on behalf of a call at `p`. -/
def readLine (p : Position) : Action (Option String) := do
  match ← (Dialogue.ask p : Dialogue (Except String (Option String))) with
  | .ok line => pure line
  | .error reason => fail (.io reason p)

/--
Runs an action as one more active call in an environment of its own, and returns to the present
environment, however the action ends.
-/
def within (environment : Environment) (action : Action α) : Action α :=
  fun state => do
    let (result, after) ←
      action.perform { state with environment := environment, depth := state.depth + 1 }
    pure (result, { after with environment := state.environment, depth := after.depth - 1 })

/-! ### How actions run -/

theorem check_ok (value : α) : check (.ok value) = pure value := rfl

theorem check_error (cause : RuntimeError) : (check (.error cause) : Action α) = fail cause := rfl

theorem perform_pure (value : α) (state : State) :
    (pure value : Action α).perform state = .done (.ok value, state) := rfl

theorem perform_fail (cause : RuntimeError) (state : State) :
    (fail cause : Action α).perform state = .done (.error (.error (.runtime cause)), state) := rfl

/-- An action that stops is not gone on from. -/
theorem perform_bind (action : Action α) (next : α → Action β) (state : State) :
    (action >>= next).perform state = action.perform state >>= fun
      | (.ok value, after) => (next value).perform after
      | (.error halt, after) => .done (.error halt, after) := by
  change action state >>= _ = action state >>= _
  congr 1
  funext ⟨result, after⟩
  cases result <;> rfl

theorem perform_environment_bind (next : Environment → Action β) (state : State) :
    (environment >>= next).perform state = (next state.environment).perform state := rfl

theorem perform_functions_bind (next : FunctionTable → Action β) (state : State) :
    (functions >>= next).perform state = (next state.functions).perform state := rfl

theorem perform_depth_bind (next : Nat → Action β) (state : State) :
    (depth >>= next).perform state = (next state.depth).perform state := rfl

theorem perform_rebind_bind (env : Environment) (next : Unit → Action β) (state : State) :
    (rebind env >>= next).perform state = (next ()).perform { state with environment := env } :=
  rfl

theorem perform_redefine_bind (functions : FunctionTable) (next : Unit → Action β)
    (state : State) :
    (redefine functions >>= next).perform state =
      (next ()).perform { state with functions := functions } := rfl

theorem perform_within (env : Environment) (action : Action α) (state : State) :
    (within env action).perform state =
      action.perform { state with environment := env, depth := state.depth + 1 } >>=
        fun (result, after) => .done (result,
          { after with environment := state.environment, depth := after.depth - 1 }) := rfl

theorem perform_write (text : String) (p : Position) (state : State) :
    (write text p).perform state = .write text p fun
      | .ok _ => .done (.ok (), state)
      | .error reason => .done (.error (.error (.runtime (.io reason p))), state) := by
  change Dialogue.write text p _ = _
  congr 1
  funext answer
  cases answer <;> rfl

theorem perform_readLine (p : Position) (state : State) :
    (readLine p).perform state = .read p fun
      | .ok line => .done (.ok line, state)
      | .error reason => .done (.error (.error (.runtime (.io reason p))), state) := by
  change Dialogue.read p _ = _
  congr 1
  funext answer
  cases answer <;> rfl

/-! ### Loops -/

/-- One round of a loop: the state to go on from, or how the loop ends. -/
def step (round : Action (Option β)) (state : State) :
    Dialogue (State ⊕ Except Halt β × State) := do
  match ← round.perform state with
  | (.ok none, state) => pure (.inl state)
  | (.ok (some value), state) => pure (.inr (.ok value, state))
  | (.error halt, state) => pure (.inr (.error halt, state))

/-- Repeats `round` until it gives a value; after `rounds` of them the action is exhausted. -/
def loop (rounds : Nat) (round : Action (Option β)) : Action β :=
  fun state => do
    match ← Dialogue.iterate (step round) rounds state with
    | .inl state => pure (.error .exhausted, state)
    | .inr result => pure result

theorem loop_zero (round : Action (Option β)) : loop 0 round = throw .exhausted := rfl

/-- A loop runs one round and goes on with one round less, unless the first gives a value. -/
theorem loop_succ (rounds : Nat) (round : Action (Option β)) :
    loop (rounds + 1) round = round >>= fun
      | none => loop rounds round
      | some value => pure value := by
  funext state
  change (Dialogue.iterate (step round) (rounds + 1) state >>= _) = _
  rw [Dialogue.iterate_succ]
  simp only [step, Dialogue.bind_bind]
  change round.perform state >>= _ = round.perform state >>= _
  congr 1
  funext result
  rcases result with ⟨_ | _ | _, _⟩ <;> rfl

end Action

end Arrow
