import Arrow.Action
import Arrow.Value.Collection

/-!
# Built-in functions

The functions that every program can call without declaring them.
-/

namespace Arrow

/-- A built-in function. -/
inductive Builtin where
  | print
  | output
  | input
  | len
  | str
deriving DecidableEq

namespace Builtin

def all : List Builtin :=
  [print, output, input, len, str]

def name : Builtin → String
  | print => "print"
  | output => "output"
  | input => "input"
  | len => "len"
  | str => "str"

/-- The built-in function with the given name. -/
def ofName? (name : String) : Option Builtin :=
  all.find? (·.name = name)

theorem ofName?_name (builtin : Builtin) : ofName? builtin.name = some builtin := by
  cases builtin <;> rfl

/-- How many arguments a built-in function takes. -/
def arity : Builtin → Arity
  | print => .any
  | output => .any
  | input => .oneOf [0, 1]
  | len => .exactly 1
  | str => .exactly 1

/-- Reads a line as a value; at the end of the input it is null. -/
def readValue (p : Position) : Action Value := do
  match ← Action.readLine p with
  | some line => pure (.text line)
  | none => pure .null

/--
Calls a built-in function at `p`. Printing writes all its arguments and the end of the line as one
text; a prompt is written before the line is read.
-/
def call (builtin : Builtin) (args : List Value) (p : Position) : Action Value :=
  match builtin, args with
  | print, args => do
    Action.write (Value.join args ++ "\n") p
    pure .null
  | output, args => do
    Action.write (Value.join args) p
    pure .null
  | input, [] => readValue p
  | input, [prompt] => do
    Action.write prompt.render p
    readValue p
  | len, [value] => Action.check (value.len p)
  | str, [value] => pure (.text value.render)
  | builtin, args => Action.fail (.argumentCount builtin.name builtin.arity args.length p)

/-- A built-in function fails on a number of arguments that it does not take. -/
theorem call_of_not_accepts {builtin : Builtin} {args : List Value} (p : Position)
    (h : builtin.arity.accepts args.length = false) :
    builtin.call args p =
      Action.fail (.argumentCount builtin.name builtin.arity args.length p) := by
  cases builtin with
  | print => simp [arity, Arity.accepts] at h
  | output => simp [arity, Arity.accepts] at h
  | input =>
    rcases args with _ | ⟨prompt, _ | ⟨second, rest⟩⟩
    · simp [arity, Arity.accepts] at h
    · simp [arity, Arity.accepts] at h
    · rfl
  | len =>
    rcases args with _ | ⟨value, _ | ⟨second, rest⟩⟩
    · rfl
    · simp [arity, Arity.accepts] at h
    · rfl
  | str =>
    rcases args with _ | ⟨value, _ | ⟨second, rest⟩⟩
    · rfl
    · simp [arity, Arity.accepts] at h
    · rfl

end Builtin

end Arrow
