import Arrow.Command
import Arrow.Proofs.Dialogue.Streams
import Arrow.Proofs.Evaluation.Layout

/-!
# The command and its listings

A dialogue with a stream does not depend on what has been written before
(`Stream.conduct_after`). So the listings that the command makes stand around the output of the
program and change nothing else, and without them the command does what the run of the source text
does (`execute_eq_runSource`).
-/

namespace Arrow

/-! ## What has been written before -/

namespace Stream

/-- The stream, if `front` has been written before all else. -/
def after (front : String) (stream : Stream) : Stream :=
  { stream with output := front ++ stream.output }

theorem simulates_after (front : String) :
    Console.Simulates fun s t : Stream => s = t.after front where
  write text s t h := by
    subst h
    exact ⟨rfl, congrArg (Stream.mk t.input) String.append_assoc⟩
  readLine := by
    rintro s ⟨input, output⟩ rfl
    simp only [Console.readLine, after]
    cases splitLine input with
    | mk line rest => cases line <;> exact ⟨rfl, rfl⟩

/-- What has been written before a dialogue stays in front, and makes no other difference. -/
theorem conduct_after {α : Type} (d : Dialogue α) (front : String) (stream : Stream) :
    d.conduct (stream.after front) = ((d.conduct stream).1, (d.conduct stream).2.after front) := by
  obtain ⟨hresult, hstream⟩ := (simulates_after front).conduct (t := stream) rfl d
  exact Prod.ext hresult hstream

theorem conduct_eq_after {α : Type} (d : Dialogue α) (input : List UInt8) (output : String) :
    d.conduct (⟨input, output⟩ : Stream) =
      ((d.conduct (⟨input, ""⟩ : Stream)).1,
        (d.conduct (⟨input, ""⟩ : Stream)).2.after output) := by
  have h := conduct_after d output ⟨input, ""⟩
  rwa [after, String.append_empty] at h

end Stream

/-! ## Listings -/

namespace Listing

/-- A line for every token. -/
def ofTokens (tokens : List Token) : String :=
  "Tokens:" ++ "\n" ++ String.join (tokens.map (·.entry ++ "\n"))

/-- The outline of the syntax tree. -/
def ofProgram (program : Program) : String :=
  "Abstract Syntax Tree (AST):" ++ "\n" ++ ((Outline.ofProgram program).block 0 ++ "\n")

/-- A line for every binding. -/
def ofEnvironment (environment : Environment) : String :=
  "Environment:" ++ "\n" ++ (environment.render ++ "\n")

end Listing

namespace Options

variable (options : Options)

/-- A listing, if the options ask for listings and there is something to list. -/
def shown {α : Type} (listing : α → String) (value : Option α) : String :=
  if options.debug then value.elim "" listing else ""

@[simp]
theorem shown_none {α : Type} (listing : α → String) : options.shown listing none = "" := by
  unfold shown
  split <;> rfl

variable (input : List UInt8) (output : String)

/-- A listing is written, and has no other effect. -/
theorem conduct_list (heading lines : String) :
    (options.list heading lines).run.conduct (⟨input, output⟩ : Stream) =
      (.ok (), ⟨input, output ++ options.shown (heading ++ "\n" ++ ·) (some lines)⟩) := by
  unfold list shown
  split
  · rfl
  · rw [String.append_empty]
    rfl

theorem conduct_list_bind (heading lines : String) {α : Type} (next : ExceptT Halt Dialogue α) :
    (options.list heading lines >>= fun _ => next).run.conduct (⟨input, output⟩ : Stream) =
      next.run.conduct (⟨input, output ++
        options.shown (heading ++ "\n" ++ ·) (some lines)⟩ : Stream) := by
  rw [ExceptT.run_bind, Dialogue.conduct_bind, conduct_list]

/-- A program is run, and the bindings that it leaves are listed. -/
theorem conduct_run_bind (d : Dialogue (Except Halt Environment × State)) :
    (liftM d >>= fun ending => match ending.1 with
      | .error halt => throw halt
      | .ok environment => options.list "Environment:" (environment.render ++ "\n") :
      ExceptT Halt Dialogue Unit).run.conduct (⟨input, output⟩ : Stream) =
      ((d.conduct (⟨input, ""⟩ : Stream)).1.1.map fun _ => (),
        ⟨(d.conduct (⟨input, ""⟩ : Stream)).2.input,
          output ++ (d.conduct (⟨input, ""⟩ : Stream)).2.output ++
            options.shown Listing.ofEnvironment
              (d.conduct (⟨input, ""⟩ : Stream)).1.1.toOption⟩) := by
  rw [show (liftM d : ExceptT Halt Dialogue _) = ExceptT.lift d from rfl, ExceptT.run_bind_lift,
    Dialogue.conduct_bind, Stream.conduct_eq_after d input output]
  obtain ⟨⟨result, after⟩, left⟩ := d.conduct (⟨input, ""⟩ : Stream)
  cases result with
  | error halt =>
    simp only [Except.toOption, shown_none, String.append_empty]
    rfl
  | ok environment => exact options.conduct_list left.input (output ++ left.output) _ _

end Options

/--
The command ends as the run of the source text does. Its output is that of the run, behind the
listings of the tokens and of the tree and in front of that of the bindings.
-/
theorem conduct_execute (options : Options) (rounds : Nat) (source : String)
    (input : List UInt8) :
    let plain := (runSource options.config rounds source).conduct (⟨input, ""⟩ : Stream)
    let tokens := (tokenize source).toOption
    let program := tokens.bind fun tokens => (parse tokens).toOption
    (execute options rounds source).run.conduct (⟨input, ""⟩ : Stream) =
      (plain.1.map fun _ => (), ⟨plain.2.input,
        options.shown Listing.ofTokens tokens ++ options.shown Listing.ofProgram program ++
          plain.2.output ++ options.shown Listing.ofEnvironment plain.1.toOption⟩) := by
  intro plain tokens program
  unfold execute
  cases htokens : tokenize source with
  | error cause =>
    have hplain : plain = (.error (.error (.lex cause)), ⟨input, ""⟩) := by
      simp only [plain, runSource, htokens]
      rfl
    simp only [hplain, tokens, program, htokens, Except.toOption, Option.bind_none,
      Options.shown_none]
    rfl
  | ok ts =>
    dsimp only
    rw [Options.conduct_list_bind, String.empty_append]
    cases hparse : parse ts with
    | error cause =>
      have hplain : plain = _ := conduct_runSource_of_parseError htokens hparse
      simp only [plain, hplain, tokens, program, htokens, hparse, Except.toOption,
        Option.bind_some, Options.shown_none, String.append_empty]
      rfl
    | ok tree =>
      have hplain : plain = _ := conduct_runSource_of_parse htokens hparse
      simp only [plain, hplain, tokens, program, htokens, hparse, Except.toOption,
        Option.bind_some]
      rw [Options.conduct_list_bind]
      exact options.conduct_run_bind _ _ _

/--
Without listings the command ends as the run of the source text does, under the configuration that
the options ask for, and reads and writes the same. With listings it ends in the same way and reads
the same; what it writes is the listing of the tokens, if the text has any, that of the tree, if
there is one, the output of the program, and the listing of the bindings that are left, if the run
succeeds.
-/
theorem execute_eq_runSource (strict : Bool) (rounds : Nat) (source : String)
    (input : List UInt8) :
    let config : Config := if strict then .strict else .standard
    let plain := (runSource config rounds source).conduct (⟨input, ""⟩ : Stream)
    let quiet := (execute ⟨false, strict⟩ rounds source).run.conduct (⟨input, ""⟩ : Stream)
    let listed := (execute ⟨true, strict⟩ rounds source).run.conduct (⟨input, ""⟩ : Stream)
    let tokens := (tokenize source).toOption
    let program := tokens.bind fun tokens => (parse tokens).toOption
    quiet = (plain.1.map fun _ => (), plain.2) ∧
      listed = (quiet.1, ⟨quiet.2.input,
        tokens.elim "" Listing.ofTokens ++ program.elim "" Listing.ofProgram ++
          quiet.2.output ++ plain.1.toOption.elim "" Listing.ofEnvironment⟩) := by
  intro config plain quiet listed tokens program
  have hquiet : quiet = (plain.1.map fun _ => (), plain.2) := by
    have h := conduct_execute ⟨false, strict⟩ rounds source input
    simp only [Options.shown, Bool.false_eq_true, if_false, String.empty_append,
      String.append_empty] at h
    exact h
  refine ⟨hquiet, ?_⟩
  rw [hquiet]
  exact conduct_execute ⟨true, strict⟩ rounds source input

end Arrow
