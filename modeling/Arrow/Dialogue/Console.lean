import Arrow.Dialogue

/-!
# Consoles

A console answers the writes and reads of a dialogue. A `Transcript` has its lines prepared and
keeps what is written; an `Unreliable` console fails at a chosen write and a chosen read.
-/

namespace Arrow

/-- What answers a dialogue. A failure comes with its reason. -/
class Console (σ : Type) where
  write : String → σ → Except String Unit × σ
  readLine : σ → Except String (Option String) × σ

/-- Holds a dialogue with a console, up to its result. -/
def Dialogue.conduct {σ α : Type} [Console σ] : Dialogue α → σ → α × σ
  | done value, console => (value, console)
  | write text _ next, console =>
    let (answer, console) := Console.write text console
    (next answer).conduct console
  | read _ next, console =>
    let (answer, console) := Console.readLine console
    (next answer).conduct console

namespace Dialogue

variable {σ α β : Type} [Console σ]

@[simp]
theorem conduct_done (value : α) (console : σ) : (done value).conduct console = (value, console) :=
  rfl

/-- A dialogue that goes on is held as a whole by holding its parts one after the other. -/
theorem conduct_bind (d : Dialogue α) (f : α → Dialogue β) (console : σ) :
    (d >>= f).conduct console =
      (f (d.conduct console).1).conduct (d.conduct console).2 := by
  induction d generalizing console with
  | done _ => rfl
  | write text caller next ih => exact ih _ _
  | read caller next ih => exact ih _ _

end Dialogue

/-- The lines that are still to be read, and the text that has been written. -/
structure Transcript where
  lines : List String
  output : String

instance : Console Transcript where
  write text console := (.ok (), { console with output := console.output ++ text })
  readLine console :=
    match console.lines with
    | [] => (.ok none, console)
    | line :: lines => (.ok (some line), { console with lines := lines })

/-- A failure of the operation with the given number, counted from zero. -/
structure Fault where
  index : Nat
  reason : String

/-- A console that fails at most once in writing and once in reading, without any effect then. -/
structure Unreliable (σ : Type) where
  console : σ
  writeFault : Option Fault
  readFault : Option Fault
  writes : Nat
  reads : Nat

/-- The reason for which the operation with the given number fails, if it does. -/
def Fault.reason? (fault : Option Fault) (index : Nat) : Option String :=
  (fault.filter (·.index = index)).map (·.reason)

instance {σ : Type} [Console σ] : Console (Unreliable σ) where
  write text state :=
    let counted := { state with writes := state.writes + 1 }
    match Fault.reason? state.writeFault state.writes with
    | some reason => (.error reason, counted)
    | none =>
      let (answer, console) := Console.write text state.console
      (answer, { counted with console := console })
  readLine state :=
    let counted := { state with reads := state.reads + 1 }
    match Fault.reason? state.readFault state.reads with
    | some reason => (.error reason, counted)
    | none =>
      let (answer, console) := Console.readLine state.console
      (answer, { counted with console := console })

end Arrow
