import Arrow.Proofs.Evaluation.LoopFree
import Arrow.Proofs.Evaluation.Outcome

/-!
# Programs without loops terminate

`recurse` follows the recursion of calls for a number of nested calls and is exhausted beyond it, so
a run that is exhausted with every such number does not end. The limit on active calls ends every
run of a program without loops: as many nested calls as are allowed are enough for it
(`finishes_recurse`), and where the recursion itself would go on, the run ends with a stack
overflow.
-/

namespace Arrow

/-- Calls functions, and is exhausted where more than `nesting` calls would be nested. -/
def recurse (config : Config) (rounds nesting : Nat) : Calling :=
  .nested config rounds (fun _ _ => throw .exhausted) nesting

theorem recurse_succ (config : Config) (rounds nesting : Nat) :
    recurse config rounds (nesting + 1) = .dispatch config fun f frame p =>
      f.run ⟨config, rounds, recurse config rounds nesting⟩ frame p :=
  rfl

/-- What is left of the limit bounds the nested calls, so it is enough to follow as many. -/
theorem finishes_recurse {config : Config} (rounds : Nat) {nesting depth : Nat}
    (h : config.maxCallDepth ≤ depth + nesting) :
    Calling.Finishes depth (recurse config rounds nesting) := by
  induction nesting generalizing depth with
  | zero =>
    -- Nothing is left of the limit, so the call is refused before its body runs.
    exact Calling.finishes_dispatch fun hdepth => absurd h (by omega)
  | succ nesting ih =>
    have hcall : Calling.Finishes (depth + 1) (recurse config rounds nesting) := ih (by omega)
    rw [recurse_succ]
    exact Calling.finishes_dispatch fun _ f hf frame p => f.finishes_run hf hcall frame p

variable {waived : Halt → Prop} {config config' : Config} {rounds nesting nesting' : Nat}

/-- Beyond what `recurse` follows, anything may be done if exhaustion is waived. -/
theorem alike_recurse_nested (rounds : Nat) (hconfig : config.Relaxed waived config')
    (hwaived : waived .exhausted) (hle : nesting ≤ nesting')
    (beyond : Function → Position → Action Value) :
    Calling.Alike waived .univ .univ .univ (recurse config rounds nesting)
      (.nested config' rounds beyond nesting') := by
  have hexhausted (R : State → State → Prop) (other : Action Value) :
      Action.Alike waived R (throw .exhausted) other :=
    fun _ _ _ => .waived ⟨.exhausted, rfl, hwaived⟩
  exact Calling.alike_nested hconfig (.refl _ rounds) hle (fun R _ _ => hexhausted R _)
    (fun _ R _ _ => hexhausted R) (subset_refl _)

/-- Calls run as the recursion of calls does, unless they stop because of their limit. -/
theorem alike_invoke_recurse (rounds : Nat) (hconfig : config.Relaxed waived config')
    (hwaived : ∀ name p, waived (.error (.runtime (.stackOverflow name config.maxCallDepth p))))
    (hle : nesting ≤ nesting') :
    Calling.Alike waived .univ .univ .univ (invoke config rounds nesting)
      (recurse config' rounds nesting') := by
  have hoverflow (R : State → State → Prop) (f : Function) (p : Position) (other : Action Value) :
      Action.Alike waived R (Calling.overflow config f p) other :=
    Action.alike_fail_of_waived (hwaived f.name p) other
  rw [invoke_eq_nested]
  exact Calling.alike_nested hconfig (.refl _ rounds) hle (fun R f p => hoverflow R f p _)
    (fun _ => hoverflow) (subset_refl _)

namespace Program

/-- What the run of a program comes to: its result, its last state and the console. -/
def ending {σ : Type} [Console σ] (program : Program) (ctx : Context) (console : σ) :
    (Except Halt Environment × State) × σ :=
  ((program.run ctx).perform .initial).conduct console

/-- With no limit in reach, no number of nested calls is enough for the run. -/
def RecursForever {σ : Type} [Console σ] (program : Program) (config : Config) (rounds : Nat)
    (console : σ) : Prop :=
  ∀ nesting, let unlimited : Config := { config with maxCallDepth := nesting + 1 }
    (program.ending ⟨unlimited, rounds, recurse unlimited rounds nesting⟩ console).1.1 =
      .error .exhausted

variable {σ : Type} [Console σ] {program : Program} {console : σ}

theorem LoopFree.ending_recurse_ne_exhausted (h : program.LoopFree) (config : Config)
    (rounds : Nat) (console : σ) :
    (program.ending ⟨config, rounds, recurse config rounds config.maxCallDepth⟩ console).1.1 ≠
      .error .exhausted := by
  have hcall : Calling.Finishes 0 (recurse config rounds config.maxCallDepth) :=
    finishes_recurse rounds (by omega)
  have hrun : Action.Finishes 0
      (program.run ⟨config, rounds, recurse config rounds config.maxCallDepth⟩) :=
    h.finishes_run hcall
  exact ((hrun .initial ⟨FunctionTable.loopFree_empty, rfl⟩).conduct console).1 .exhausted rfl

/-- Following more calls than are allowed, or leaving them to something else, changes nothing. -/
theorem LoopFree.ending_nested (h : program.LoopFree) (hle : config.maxCallDepth ≤ nesting)
    (rounds : Nat) (beyond : Function → Position → Action Value) (console : σ) :
    program.ending ⟨config, rounds, .nested config rounds beyond nesting⟩ console =
      program.ending ⟨config, rounds, recurse config rounds config.maxCallDepth⟩ console := by
  have hcall := alike_recurse_nested rounds (.refl (· = .exhausted) config) rfl hle beyond
  have hctx : Context.Alike (· = .exhausted) .univ .univ .univ
      ⟨config, rounds, recurse config rounds config.maxCallDepth⟩
      ⟨config, rounds, .nested config rounds beyond nesting⟩ := ⟨.refl _ _, .refl _ _, hcall⟩
  rcases (program.alike_run hctx).conduct .initial console with ⟨halt, hhalt, rfl⟩ | hsame
  · exact absurd hhalt (h.ending_recurse_ne_exhausted config rounds console)
  · exact hsame.symm

/-- A recursion that no number of nested calls is enough for comes to the limit. -/
theorem exists_stackOverflow_of_recursForever
    (hne : (program.ending (.outermost config rounds) console).1.1 ≠ .error .exhausted)
    (h : program.RecursForever config rounds console) :
    ∃ name p, (program.ending (.outermost config rounds) console).1.1 =
      .error (.error (.runtime (.stackOverflow name config.maxCallDepth p))) := by
  let overflows (halt : Halt) : Prop :=
    ∃ name p, halt = .error (.runtime (.stackOverflow name config.maxCallDepth p))
  let unlimited : Config := { config with maxCallDepth := config.maxCallDepth + 1 }
  have hconfig : config.Relaxed overflows unlimited :=
    ⟨⟨Nat.le_succ _, fun _ name p => ⟨name, p, rfl⟩⟩, .inl rfl, .inl rfl⟩
  have hcall := alike_invoke_recurse rounds hconfig (fun name p => ⟨name, p, rfl⟩)
    (le_refl config.maxCallDepth)
  have hctx : Context.Alike overflows .univ .univ .univ (.outermost config rounds)
      ⟨unlimited, rounds, recurse unlimited rounds config.maxCallDepth⟩ :=
    ⟨hconfig, .refl _ _, hcall⟩
  rcases (program.alike_run hctx).conduct .initial console with hstopped | hsame
  · obtain ⟨halt, hhalt, name, p, rfl⟩ := hstopped
    exact ⟨name, p, hhalt⟩
  · have hexhausted : (program.ending (.outermost config rounds) console).1.1 =
        .error .exhausted := by
      unfold ending
      rw [hsame]
      exact h config.maxCallDepth
    exact absurd hexhausted hne

/--
A program without loops comes to an end under every configuration and with every console: with its
bindings or with an error, which following the recursion of its calls any further would not change.
If that recursion has no end of its own, the error is a stack overflow.
-/
theorem LoopFree.terminates (h : program.LoopFree) (config : Config) (rounds : Nat) (console : σ) :
    let ending := program.ending (.outermost config rounds) console
    (∃ result : Except Error Environment, ending.1.1 = result.mapError .error) ∧
      (∀ nesting, config.maxCallDepth ≤ nesting →
        program.ending ⟨config, rounds, recurse config rounds nesting⟩ console = ending) ∧
      (program.RecursForever config rounds console →
        ∃ name p, ending.1.1 =
          .error (.error (.runtime (.stackOverflow name config.maxCallDepth p)))) := by
  intro ending
  have houtermost : ending =
      program.ending ⟨config, rounds, recurse config rounds config.maxCallDepth⟩ console := by
    have hnested := h.ending_nested (le_refl config.maxCallDepth) rounds (Calling.overflow config)
      console
    rw [← invoke_eq_nested] at hnested
    exact hnested
  have hne : ending.1.1 ≠ .error .exhausted := by
    rw [houtermost]
    exact h.ending_recurse_ne_exhausted config rounds console
  refine ⟨?_, fun nesting hle => ?_, exists_stackOverflow_of_recursForever hne⟩
  · rcases hresult : ending.1.1 with (cause | _) | environment
    · exact ⟨.error cause, rfl⟩
    · exact absurd hresult hne
    · exact ⟨.ok environment, rfl⟩
  · rw [houtermost]
    exact h.ending_nested hle rounds _ console

end Program

/-! ## Functions that only call one another -/

/-- The function that does nothing but call another one. -/
def Function.forward (name callee : String) : Function :=
  ⟨name, [], none, [.returnValue (.call callee [] .start) .start], .start⟩

/-- A body that is a single call is exhausted when the call is. -/
theorem Function.perform_run_forward {ctx : Context} {callee : String} {environment : Environment}
    {functions : FunctionTable} {depth : Nat}
    (h : (ctx.call callee [] .start).perform ⟨environment, functions, depth + 1⟩ =
      .done (.error .exhausted, ⟨environment, functions, depth + 1⟩)) (name : String)
    (p : Position) :
    ((forward name callee).run ctx environment p).perform ⟨environment, functions, depth⟩ =
      .done (.error .exhausted, ⟨environment, functions, depth⟩) := by
  have hbody : (Statement.runAll ctx (forward name callee).body).perform
      ⟨environment, functions, depth + 1⟩ =
      .done (.error .exhausted, ⟨environment, functions, depth + 1⟩) := by
    show Action.perform (Flow.andThen (Statement.run ctx (.returnValue (.call _ _ _) _)) _) _ = _
    unfold Flow.andThen Statement.run Expr.eval Expr.evalAll
    rw [pure_bind, Action.perform_bind, Action.perform_bind, h]
    rfl
  unfold Function.run
  rw [Action.perform_bind, Action.perform_within, hbody]
  rfl

/-- Functions that only call one another never come to an end while no limit is in reach. -/
theorem perform_recurse_forward (names : Set String) (next : String → String)
    {functions : FunctionTable} (hnext : ∀ name ∈ names, next name ∈ names)
    (hbuiltin : ∀ name ∈ names, Builtin.ofName? name = none)
    (hfind : ∀ name ∈ names, functions.find? name = some (.forward name (next name)))
    (environment : Environment) {depth : Nat} (hdepth : depth + nesting < config.maxCallDepth)
    {name : String} (hname : name ∈ names) (p : Position) :
    (recurse config rounds nesting name [] p).perform ⟨environment, functions, depth⟩ =
      .done (.error .exhausted, ⟨environment, functions, depth⟩) := by
  induction nesting generalizing depth name p with
  | zero => exact Calling.perform_dispatch (hbuiltin name hname) (hfind name hname) rfl hdepth
  | succ nesting ih =>
    have hframe : (Function.forward name (next name)).frame [] p environment = .ok environment :=
      rfl
    have hlt : depth < config.maxCallDepth := by omega
    rw [recurse_succ, Calling.perform_dispatch (hbuiltin name hname) (hfind name hname) hframe hlt]
    exact Function.perform_run_forward (ih (by omega) (hnext name hname) .start) name p

/-- A program in which the entry point and another function only call each other. -/
def Program.pingPong : Program :=
  ⟨[.function (.forward "main" "f"), .function (.forward "f" "main")]⟩

theorem Program.recursForever_pingPong (config : Config) (console : Transcript) :
    pingPong.RecursForever config 0 console := by
  intro nesting unlimited
  let functions : FunctionTable := ⟨[.forward "f" "main", .forward "main" "f"]⟩
  have hcall : (recurse unlimited 0 nesting "main" [] .start).perform ⟨.empty, functions, 0⟩ =
      .done (.error .exhausted, ⟨.empty, functions, 0⟩) := by
    have hdepth : 0 + nesting < unlimited.maxCallDepth := by
      show 0 + nesting < nesting + 1
      omega
    refine perform_recurse_forward {"main", "f"} (fun name => if name = "main" then "f" else "main")
      ?_ ?_ ?_ .empty hdepth (.inl rfl) .start
    · rintro name (rfl | rfl)
      · exact .inr rfl
      · exact .inl rfl
    · rintro name (rfl | rfl) <;> rfl
    · rintro name (rfl | rfl) <;> rfl
  have hrun : (pingPong.run ⟨unlimited, 0, recurse unlimited 0 nesting⟩).perform .initial =
      .done (.error .exhausted, ⟨.empty, functions, 0⟩) := by
    have hbody : (runBody ⟨unlimited, 0, recurse unlimited 0 nesting⟩ pingPong.body).perform
        .initial = .done (.ok (), ⟨.empty, functions, 0⟩) := rfl
    have hentry : (runEntryPoint ⟨unlimited, 0, recurse unlimited 0 nesting⟩).perform
        ⟨.empty, functions, 0⟩ = .done (.error .exhausted, ⟨.empty, functions, 0⟩) := by
      show ((recurse unlimited 0 nesting "main" [] .start) >>= _).perform _ = _
      rw [Action.perform_bind, hcall]
      rfl
    unfold run
    rw [Action.perform_bind, hbody]
    show ((runEntryPoint _) >>= _).perform _ = _
    rw [Action.perform_bind, hentry]
    rfl
  unfold ending
  rw [hrun]
  rfl

/-- Two functions that only call each other overflow the standard limit. -/
theorem Program.terminates_pingPong :
    pingPong.LoopFree ∧ pingPong.RecursForever .standard 0 (⟨[], ""⟩ : Transcript) ∧
      ∃ name p, (pingPong.ending (.outermost .standard 0) (⟨[], ""⟩ : Transcript)).1.1 =
        .error (.error (.runtime (.stackOverflow name Config.standard.maxCallDepth p))) := by
  have hloopFree : pingPong.LoopFree := ⟨⟨trivial, trivial⟩, ⟨trivial, trivial⟩, trivial⟩
  have hforever := recursForever_pingPong .standard ⟨[], ""⟩
  obtain ⟨_, _, hoverflow⟩ := hloopFree.terminates .standard 0 (⟨[], ""⟩ : Transcript)
  exact ⟨hloopFree, hforever, hoverflow hforever⟩

end Arrow
