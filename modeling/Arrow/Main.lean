import Arrow.Command
import Arrow.Dialogue.Stream

/-!
# The command line

`arrow [--debug] [--strict] FILE` runs a script on the standard streams.
-/

namespace Arrow

/-- Holds a dialogue on the standard streams. -/
def Dialogue.onStandardStreams {α : Type} : Dialogue α → IO α
  | done value => pure value
  | write text _ next => do
    let answer ← try
        let out ← IO.getStdout
        out.putStr text
        out.flush
        pure (.ok ())
      catch failure => pure (.error (toString failure))
    (next answer).onStandardStreams
  | read _ next => do
    let answer ← try
        let line ← (← IO.getStdin).getLine
        pure (.ok (if line.isEmpty then none else some (Stream.trimLine line)))
      catch failure => pure (.error (toString failure))
    (next answer).onStandardStreams

/-- The options and the file that the arguments name. -/
def readArguments (options : Options) (file : Option String) :
    List String → Option (Options × String)
  | [] => file.map (options, ·)
  | arg :: args =>
    if arg = "--debug" || arg = "-d" then readArguments { options with debug := true } file args
    else if arg = "--strict" || arg = "-s" then
      readArguments { options with strict := true } file args
    else if arg.startsWith "-" || file.isSome then none
    else readArguments options (some arg) args

/-- Runs a script and reports how it has ended. -/
def runScript (options : Options) (source : String) : IO UInt32 := do
  let start ← IO.monoMsNow
  let outcome ← (execute options (1 <<< 62) source).run.onStandardStreams
  match outcome with
  | .ok _ =>
    IO.println s!"Program exited successfully in {(← IO.monoMsNow) - start}ms"
    return 0
  | .error (.error cause) =>
    IO.eprintln s!"Error: {cause.message}"
    IO.eprintln s!"Suggested fix: {cause.remedy}"
    return 1
  | .error .exhausted =>
    IO.eprintln "Error: a loop has taken too many rounds"
    return 1

end Arrow

def main (args : List String) : IO UInt32 := do
  match Arrow.readArguments ⟨false, false⟩ none args with
  | none =>
    IO.eprintln "Usage: arrow [--debug] [--strict] FILE"
    return 2
  | some (options, file) =>
    match ← (IO.FS.readFile file).toBaseIO with
    | .ok source => Arrow.runScript options source
    | .error failure =>
      IO.eprintln s!"Failed to read the input file '{file}': {failure}"
      return 1
