import Arrow.Evaluation.Program
import Arrow.Outline.Program
import Arrow.Remedy

/-!
# The command

Runs a source text the way the command line does: the tokens, the syntax tree and the final
environment can be listed around the output of the program.
-/

namespace Arrow

/-- The choices that the command line leaves. -/
structure Options where
  debug : Bool
  strict : Bool

/-- The configuration that the options ask for. -/
def Options.config (options : Options) : Config :=
  if options.strict then .strict else .standard

/-- Writes lines under a heading if the options ask for listings. -/
def Options.list (options : Options) (heading : String) (lines : String) :
    ExceptT Halt Dialogue Unit :=
  if options.debug then do
    let _ ← Dialogue.say (heading ++ "\n" ++ lines) none
  else pure ()

/-- Runs a source text, for at most `rounds` rounds of any loop. -/
def execute (options : Options) (rounds : Nat) (source : String) : ExceptT Halt Dialogue Unit := do
  match tokenize source with
  | .error cause => throw (.error (.lex cause))
  | .ok tokens =>
    options.list "Tokens:" (String.join (tokens.map (·.entry ++ "\n")))
    match parse tokens with
    | .error cause => throw (.error (.parse cause))
    | .ok program =>
      options.list "Abstract Syntax Tree (AST):" ((Outline.ofProgram program).block 0 ++ "\n")
      let (result, _) ← (program.run (.outermost options.config rounds)).perform .initial
      match result with
      | .error halt => throw halt
      | .ok environment => options.list "Environment:" (environment.render ++ "\n")

end Arrow
