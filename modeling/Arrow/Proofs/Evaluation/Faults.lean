import Arrow.Proofs.Action.Surrenders
import Arrow.Proofs.Evaluation.Compositional
import Mathlib

/-!
# Runs with failing consoles

`Performs config source console log result after` says that a run ends and which operations the
console has performed in it. All parts of a program surrender to the first failure of the console
(`surrenders_runSource`), so a run with a console that fails once has the operations of the run with
one that does not, up to the failure (`Performs.up_to_fault`).
-/

namespace Arrow

theorem Action.compositional_surrenders :
    Action.Compositional fun _ action => action.Surrenders where
  pure := Action.surrenders_pure
  fail := Action.surrenders_fail
  environment := Action.surrenders_environment
  functions := Action.surrenders_functions
  depth := Action.surrenders_depth
  write := Action.surrenders_write
  readLine := Action.surrenders_readLine
  bind := Action.Surrenders.bind

/-- Every call surrenders to the first failure. -/
def Calling.Surrenders (call : Calling) : Prop :=
  ∀ name args p, (call name args p).Surrenders

theorem Action.runRules_surrenders {ctx : Context} (hcall : ctx.call.Surrenders) :
    Action.RunRules (fun _ action => action.Surrenders) ctx (fun _ => True) fun _ => True := by
  have h := Action.compositional_surrenders
  refine h.runRules hcall (fun _ _ _ _ => ?_) (fun _ _ => ?_)
    fun _ _ _ hround => hround.loop _
  · exact h.bind h.environment fun _ => h.bind (h.check _) fun environment =>
      h.bind (Action.surrenders_rebind environment) fun _ => h.pure _
  · exact h.bind h.functions fun _ => h.bind (h.check _) fun functions =>
      h.bind (Action.surrenders_redefine functions) fun _ => h.pure _

theorem Calling.surrenders_invoke (config : Config) (rounds calls : Nat) :
    Calling.Surrenders (invoke config rounds calls) := by
  have h := Action.compositional_surrenders
  induction calls with
  | zero => exact h.dispatch fun _ _ _ => h.fail _
  | succ calls ih =>
    refine h.dispatch fun f frame p => ?_
    have body : (Statement.runAll ⟨config, rounds, invoke config rounds calls⟩ f.body).Surrenders :=
      (Action.runRules_surrenders ih).runAll f.body
        (Statement.allIn_of_forall (fun _ => trivial) (fun _ => trivial) _)
    exact (body.within frame).bind fun _ => h.bind (h.check _) fun _ => h.pure _

theorem Program.surrenders_run (config : Config) (rounds : Nat) (program : Program) :
    (program.run (.outermost config rounds)).Surrenders := by
  have hcall : (Context.outermost config rounds).call.Surrenders :=
    Calling.surrenders_invoke config rounds config.maxCallDepth
  exact Action.compositional_surrenders.run hcall (Action.runRules_surrenders hcall)
    (Statement.allIn_of_forall (fun _ => trivial) (fun _ => trivial) program.body)

theorem surrenders_runSource (config : Config) (rounds : Nat) (source : String) :
    (runSource config rounds source).Surrenders fun cause result =>
      result = .error (.error (.runtime cause)) := by
  unfold runSource
  split
  · trivial
  · split
    · trivial
    · rename_i program _
      refine (program.surrenders_run config rounds .initial).bind (fun _ => trivial) ?_
      rintro cause ⟨_, after⟩ rfl
      exact ⟨_, rfl, rfl⟩

/-! ## Operations of calls -/

section

variable {α β σ : Type} [Console σ] {p : Position}

/-- All operations of the action are made by the call at `p`. -/
def Action.MadeAt (σ : Type) [Console σ] (p : Position) (action : Action α) : Prop :=
  ∀ (state : State) (console : σ), ∀ op ∈ (action.perform state).log console, op.caller = some p

theorem Action.madeAt_write (text : String) : (write text p).MadeAt σ p := by
  intro state console op hop
  rw [perform_write, Dialogue.log] at hop
  cases hanswer : (Console.write text console).1 <;> simp_all [Dialogue.log, Operation.caller]

theorem Action.madeAt_readLine : (readLine p).MadeAt σ p := by
  intro state console op hop
  rw [perform_readLine, Dialogue.log] at hop
  cases hanswer : (Console.readLine console).1 <;> simp_all [Dialogue.log, Operation.caller]

theorem Action.madeAt_pure (value : α) : (pure value : Action α).MadeAt σ p :=
  fun _ _ _ => nofun

theorem Action.madeAt_check (result : Except RuntimeError α) : (check result).MadeAt σ p := by
  cases result <;> exact fun _ _ _ => nofun

theorem Action.MadeAt.bind {action : Action α} {next : α → Action β} (h : action.MadeAt σ p)
    (hnext : ∀ value, (next value).MadeAt σ p) : (action >>= next).MadeAt σ p := by
  intro state console op hop
  rw [perform_bind, Dialogue.log_bind, List.mem_append] at hop
  rcases hop with hop | hop
  · exact h state console op hop
  · split at hop
    · exact hnext _ _ _ op hop
    · exact nomatch hop

theorem Builtin.madeAt_call (builtin : Builtin) (args : List Value) :
    (builtin.call args p).MadeAt σ p := by
  have read : (readValue p).MadeAt σ p := Action.madeAt_readLine.bind fun line => by
    cases line <;> exact Action.madeAt_pure _
  unfold call
  split
  · exact (Action.madeAt_write _).bind fun _ => Action.madeAt_pure _
  · exact (Action.madeAt_write _).bind fun _ => Action.madeAt_pure _
  · exact read
  · exact (Action.madeAt_write _).bind fun _ => read
  · exact Action.madeAt_check _
  · exact Action.madeAt_pure _
  · exact fun _ _ _ => nofun

end

/-! ## Failures of the console -/

/-- The run ends with the result after the given operations, and leaves the console as `after`. -/
def Performs {σ : Type} [Console σ] (config : Config) (source : String) (console : σ)
    (log : List Operation) (result : Except Error Environment) (after : σ) : Prop :=
  ∃ rounds, (runSource config rounds source).log console = log ∧
    (runSource config rounds source).conduct console = (result.mapError .error, after)

/--
An operation bears the position of the built-in call that asks for it. When the console fails at a
write, or at a read, then a run that makes no more of them is the same; any other is the same up to
the operation that fails, performs no operation after it and ends with an error at the call that has
asked for it. Only what has been written before is in the output.
-/
theorem Performs.up_to_fault {config : Config} {source : String} {lines : List String}
    {log : List Operation} {result : Except Error Environment} {after : Transcript}
    (h : Performs config source (⟨lines, ""⟩ : Transcript) log result after) (atWrite : Bool)
    (fault : Fault) :
    let failing := Unreliable.failing atWrite fault (⟨lines, ""⟩ : Transcript)
    (∀ (builtin : Builtin) (args : List Value) (p : Position),
      (builtin.call args p).MadeAt Transcript p) ∧
    (log.countP (·.isWrite = atWrite) ≤ fault.index →
      ∃ after', Performs config source failing log result after' ∧ after'.console = after) ∧
    (fault.index < log.countP (·.isWrite = atWrite) →
      ∃ before op rest p after', log = before ++ op :: rest ∧ op.isWrite = atWrite ∧
        before.countP (·.isWrite = atWrite) = fault.index ∧ op.caller = some p ∧
        Performs config source failing (before ++ [op])
          (.error (.runtime (.io fault.reason p))) after' ∧
        after'.console = ⟨lines.drop (before.countP (!·.isWrite)),
          String.join (before.map (·.text))⟩) := by
  obtain ⟨rounds, rfl, hrun⟩ := h
  refine ⟨fun builtin args p => builtin.madeAt_call args, fun hcount => ?_, fun hcount => ?_⟩
  · obtain ⟨hlog, hresult, hconsole⟩ := Dialogue.conduct_failing_of_countP_le hcount
    rw [hrun] at hresult hconsole
    exact ⟨_, ⟨rounds, hlog, Prod.ext hresult rfl⟩, hconsole⟩
  · obtain ⟨before, op, rest, p, hsplit, hop, hbefore, hcaller, hlog, hresult, hconsole⟩ :=
      (surrenders_runSource config rounds source).conduct_failing_of_lt_countP hcount
    refine ⟨before, op, rest, p, _, hsplit, hop, hbefore, hcaller,
      ⟨rounds, hlog, Prod.ext hresult rfl⟩, ?_⟩
    rw [hconsole, Transcript.applyAll_eq, String.empty_append]

/-- A prompt is written, and then the line cannot be read. -/
theorem performs_up_to_fault_of_prompt :
    Performs .standard "print(input(1))" (⟨["a"], ""⟩ : Transcript)
        [.write "1" (some ⟨1, 7⟩), .read (some ⟨1, 7⟩), .write "a\n" (some ⟨1, 1⟩)]
        (.ok .empty) ⟨[], "1a\n"⟩ ∧
      ∃ before op rest p after',
        [Operation.write "1" (some ⟨1, 7⟩), .read (some ⟨1, 7⟩), .write "a\n" (some ⟨1, 1⟩)] =
          before ++ op :: rest ∧ op.isWrite = false ∧
        before.countP (·.isWrite = false) = 0 ∧ op.caller = some p ∧
        Performs .standard "print(input(1))"
          (Unreliable.failing false ⟨0, "gone"⟩ (⟨["a"], ""⟩ : Transcript)) (before ++ [op])
          (.error (.runtime (.io "gone" p))) after' ∧
        after'.console = ⟨["a"].drop (before.countP (!·.isWrite)),
          String.join (before.map (·.text))⟩ := by
  have hrun : Performs .standard "print(input(1))" (⟨["a"], ""⟩ : Transcript)
      [.write "1" (some ⟨1, 7⟩), .read (some ⟨1, 7⟩), .write "a\n" (some ⟨1, 1⟩)]
      (.ok .empty) ⟨[], "1a\n"⟩ := ⟨0, by cbv, by cbv⟩
  exact ⟨hrun, (hrun.up_to_fault false ⟨0, "gone"⟩).2.2 (by decide)⟩

end Arrow
