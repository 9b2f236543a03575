import Arrow.Proofs.Action.Repeats
import Arrow.Proofs.Evaluation.Bindings
import Arrow.Proofs.Evaluation.Compositional
import Mathlib

/-!
# Calls that are made again

The environment and the number of active calls are as before when a call has ended, but the
functions that it has declared stay declared. So a call that goes through can be made again as long
as it declares nothing, and fails at its first declaration otherwise (`invoke_again`).
-/

namespace Arrow

/-! ## Every part of a program repeats -/

theorem Action.sequential_repeats : Action.Sequential fun _ action => action.Repeats where
  pure := Action.repeats_pure
  fail := Action.repeats_fail
  environment := Action.repeats_environment
  depth := Action.repeats_depth
  write := Action.repeats_write
  readLine := Action.repeats_readLine
  bind := Action.Repeats.bind

/-- Every call repeats. -/
def Calling.Repeats (call : Calling) : Prop :=
  ∀ name args p, (call name args p).Repeats

theorem Action.runRules_repeats {ctx : Context} (hcall : ctx.call.Repeats) :
    Action.RunRules (fun _ action => action.Repeats) ctx (fun _ => True) fun _ => True := by
  have h := Action.sequential_repeats
  refine h.runRules hcall (fun _ _ _ _ => ?_) (fun definition _ => Action.repeats_define definition)
    fun _ _ _ hround => hround.loop _
  exact h.bind h.environment fun _ => h.bind (h.check _) fun environment =>
    h.bind (Action.repeats_rebind environment) fun _ => h.pure _

theorem Function.repeats_run {ctx : Context} (hcall : ctx.call.Repeats) (frame : Environment)
    (p : Position) (f : Function) : (f.run ctx frame p).Repeats := by
  have h := Action.sequential_repeats
  have body : (Statement.runAll ctx f.body).Repeats :=
    (Action.runRules_repeats hcall).runAll f.body
      (Statement.allIn_of_forall (fun _ => trivial) (fun _ => trivial) _)
  exact (body.within frame).bind fun _ => h.bind (h.check _) fun _ => h.pure _

/-- A call repeats if bodies do: what it has found under its name is found there again. -/
theorem Calling.repeats_dispatch {config : Config}
    {body : Function → Environment → Position → Action Value}
    (hbody : ∀ f frame p, (body f frame p).Repeats) : (dispatch config body).Repeats := by
  have h := Action.sequential_repeats
  intro name args p
  unfold dispatch
  split
  · exact h.builtin _ args p
  · refine Action.Repeats.functions_bind (fun functions => ?_) fun functions functions' hmore => ?_
    · split
      · exact h.fail _
      · refine h.bind h.environment fun _ => h.bind (h.check _) fun frame => ?_
        refine h.bind h.depth fun _ => ?_
        split
        · exact h.fail _
        · exact hbody _ frame p
    · cases hfind : functions.find? name with
      | none => exact .inr ⟨_, rfl⟩
      | some f =>
        rw [hmore name f hfind]
        exact .inl rfl

theorem Calling.repeats_invoke (config : Config) (rounds calls : Nat) :
    Calling.Repeats (invoke config rounds calls) := by
  induction calls with
  | zero => exact repeats_dispatch fun _ _ _ => Action.repeats_fail _
  | succ calls ih => exact repeats_dispatch fun f frame p => f.repeats_run ih frame p

/-! ## The same call once more -/

theorem SameBindings.eq_with_functions {state after : State} (h : SameBindings state after) :
    { state with functions := after.functions } = after := by
  cases after
  cases h.1
  cases h.2
  rfl

/--
Where every write succeeds, a call that goes through without reading leaves the bindings and the
number of active calls alone. If it has declared no function, the state is the one before, and the
same call gives the same value again, writes the same texts again and leaves the same state. If it
has declared one, the same call writes a beginning of these texts and fails, since the name of a
function that the first call has declared is taken.
-/
theorem invoke_again {σ : Type} [Console σ]
    (hwrites : ∀ text (console : σ), (Console.write text console).1 = .ok ()) {config : Config}
    {rounds calls : Nat} {name : String} {args : List Value} {p : Position} {value : Value}
    {state after : State} {console left : σ}
    (hcall : ((invoke config rounds calls name args p).perform state).conduct console =
      ((.ok value, after), left))
    (hreads : ∀ op ∈ ((invoke config rounds calls name args p).perform state).log console,
      op.isWrite) :
    let texts := (((invoke config rounds calls name args p).perform state).log console).map (·.text)
    let again := (invoke config rounds calls name args p).perform after
    after.environment = state.environment ∧ after.depth = state.depth ∧
      ((after = state ∧ (again.conduct left).1 = (.ok value, after) ∧
          (again.log left).map (·.text) = texts) ∨
        ∃ definition stop, definition.IntroducedBetween state after ∧
          (again.conduct left).1 = (Action.refusal definition, stop) ∧
          (again.log left).map (·.text) <+: texts) := by
  intro texts again
  have hrun := Dialogue.recites_of_log hwrites console hreads
  rw [hcall] at hrun
  have hsame : SameBindings state after := by
    have hkept := (invoke_sameBindings config rounds calls name args p state).conduct console
    rwa [hcall] at hkept
  refine ⟨hsame.1, hsame.2, ?_⟩
  rcases (Calling.repeats_invoke config rounds calls name args p hrun).2 after.functions (.refl _)
    with ⟨hfunctions, hagain⟩ | ⟨definition, stop, front, hnew, hfront, hagain⟩
  · obtain rfl : state = after := by rw [← hsame.eq_with_functions, hfunctions]
    exact .inl ⟨rfl, hagain.conduct hwrites left⟩
  · rw [hsame.eq_with_functions] at hagain
    obtain ⟨hending, htexts⟩ := hagain.conduct hwrites left
    exact .inr ⟨definition, stop, hnew, hending, htexts ▸ hfront⟩

/-- A function that prints a line prints it again. -/
theorem invoke_again_of_print :
    let body := [Statement.expression (.call "print" [.literal (.text "a") .start] .start) .start]
    let state : State := ⟨.empty, FunctionTable.empty.insert ⟨"f", [], none, body, .start⟩, 0⟩
    let call := (invoke .standard 0 1 "f" [] .start).perform state
    call.conduct (⟨[], ""⟩ : Transcript) = ((.ok .null, state), ⟨[], "a\n"⟩) ∧
      (call.conduct (⟨[], "a\n"⟩ : Transcript)).1 = (.ok .null, state) ∧
      (call.log (⟨[], "a\n"⟩ : Transcript)).map (·.text) = ["a\n"] := by
  intro body state call
  have hcall : call.conduct (⟨[], ""⟩ : Transcript) = ((.ok .null, state), ⟨[], "a\n"⟩) := by cbv
  have hlog : call.log (⟨[], ""⟩ : Transcript) = [.write "a\n" (some .start)] := by cbv
  have hreads : ∀ op ∈ call.log (⟨[], ""⟩ : Transcript), op.isWrite := by
    rw [hlog]
    exact List.forall_mem_singleton.2 rfl
  obtain ⟨-, -, hagain⟩ := invoke_again (fun _ _ => rfl) hcall hreads
  rcases hagain with ⟨-, hending, htexts⟩ | ⟨definition, stop, hnew, -, -⟩
  · exact ⟨hcall, hending, by rw [htexts, hlog]; rfl⟩
  · have htaken := hnew.absent.symm.trans hnew.present
    cases htaken

/-- The function named `f` that declares the given function. -/
def Function.declarer (definition : Function) : Function :=
  ⟨"f", [], none, [.function definition], .start⟩

/-- A function that declares another one is refused when it is called again. -/
theorem invoke_declarer_again :
    let inner : Function := ⟨"g", [], none, [], .start⟩
    let outermost := Context.outermost .standard 0
    let call := outermost.call "f" [] .start
    ∃ state after,
      (Program.runBody outermost [.function (.declarer inner)]).perform .initial =
        .done (.ok (), state) ∧
      call.perform state = .done (.ok .null, after) ∧
      call.perform after = .done (Action.refusal inner, after) := by
  intro inner outermost call
  exact ⟨⟨.empty, ⟨[.declarer inner]⟩, 0⟩, ⟨.empty, ⟨[inner, .declarer inner]⟩, 0⟩,
    by cbv, by cbv, by cbv⟩

end Arrow
