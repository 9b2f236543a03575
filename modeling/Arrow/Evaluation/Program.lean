import Arrow.Evaluation.Call
import Arrow.Grammar.Program
import Arrow.Token.Lexer

/-!
# Running programs

A program runs its outermost statements and then its entry point, the function `main`.
-/

namespace Arrow

namespace Program

/-- Runs outermost statements, where nothing can be returned. -/
def runBody (ctx : Context) : List Statement → Action Unit
  | [] => pure ()
  | statement :: statements => do
    match ← statement.run ctx with
    | .normal => runBody ctx statements
    | .returned _ p => Action.fail (.returnOutsideFunction p)

/-- Whether a program without an entry point is in error. -/
def needsEntryPoint (mode : EntryPoint) (functions : FunctionTable) : Bool :=
  match mode with
  | .always => true
  | .whenFunctionsDeclared => !functions.isEmpty

/-- Calls the entry point, if there is one or has to be one. -/
def runEntryPoint (ctx : Context) : Action Unit := do
  let functions ← Action.functions
  match functions.find? "main" with
  | some main =>
    if main.params.isEmpty then
      let _ ← ctx.call "main" [] main.position
      pure ()
    else Action.fail (.missingEntryPoint (.parameters main.params.length))
  | none =>
    if needsEntryPoint ctx.config.entryPoint functions then
      Action.fail (.missingEntryPoint .absent)
    else pure ()

/-- Runs a program and its entry point, and gives the bindings that it leaves. -/
def run (ctx : Context) (program : Program) : Action Environment := do
  runBody ctx program.body
  runEntryPoint ctx
  Action.environment

end Program

/-- Runs a source text, for at most `rounds` rounds of any loop. -/
def runSource (config : Config) (rounds : Nat) (source : String) :
    Dialogue (Except Halt Environment) :=
  match tokenize source with
  | .error cause => pure (.error (.error (.lex cause)))
  | .ok tokens =>
    match parse tokens with
    | .error cause => pure (.error (.error (.parse cause)))
    | .ok program => do
      let (result, _) ← (program.run (.outermost config rounds)).perform .initial
      pure result

end Arrow
