import Arrow.Proofs.Action.Repeats
import Arrow.Proofs.Evaluation.Resumption
import Mathlib

/-!
# Function tables

Functions are only added, each under a name of its own that no built-in function has. `Follows`
tells in what order the instants of a run come, those inside calls included, and whatever follows
the declaration of a function finds it unchanged (`first_declaration_wins`): a failure takes back
bindings, but no function.
-/

namespace Arrow

namespace FunctionTable

variable {functions functions' : FunctionTable} {definition : Function} {name : String}
  {f : Function}

/-- No function has the name of a built-in one, and each is the one found under its name. -/
def WellNamed (functions : FunctionTable) : Prop :=
  ∀ f ∈ functions.definitions,
    Builtin.ofName? f.name = none ∧ functions.find? f.name = some f

theorem wellNamed_empty : empty.WellNamed :=
  fun _ h => nomatch h

theorem ofName?_of_declare (h : functions.declare definition = .ok functions') :
    Builtin.ofName? definition.name = none := by
  unfold declare at h
  split at h
  · exact nomatch h
  · split at h
    · exact nomatch h
    · rename_i hname
      exact Option.not_isSome_iff_eq_none.1 hname

theorem declare_of_free (hbuiltin : Builtin.ofName? definition.name = none)
    (hfree : functions.find? definition.name = none) :
    functions.declare definition = .ok (functions.insert definition) := by
  unfold declare
  rw [hfree, hbuiltin]
  rfl

theorem WellNamed.declare (h : functions.WellNamed)
    (hdeclare : functions.declare definition = .ok functions') : functions'.WellNamed := by
  intro f hf
  rw [eq_insert_of_declare hdeclare] at hf
  rcases List.mem_cons.1 hf with rfl | hf
  · exact ⟨ofName?_of_declare hdeclare, find?_of_declare hdeclare⟩
  · obtain ⟨hbuiltin, hfind⟩ := h f hf
    exact ⟨hbuiltin, extendedBy_of_declare hdeclare _ _ hfind⟩

theorem WellNamed.ofName?_of_find? (h : functions.WellNamed)
    (hfind : functions.find? name = some f) : Builtin.ofName? name = none := by
  rw [← name_of_find? hfind]
  exact (h f (List.mem_of_find?_eq_some hfind)).1

end FunctionTable

/-! ## What runs do to function tables -/

/-- All functions are still there, and if they had names of their own they have them. -/
structure FunctionsGrow (state after : State) : Prop where
  extended : state.functions.ExtendedBy after.functions
  wellNamed : state.functions.WellNamed → after.functions.WellNamed

theorem FunctionsGrow.of_eq {state after : State} (h : after.functions = state.functions) :
    FunctionsGrow state after :=
  ⟨h ▸ .refl state.functions, h ▸ id⟩

instance : IsPreorder State FunctionsGrow where
  refl state := ⟨.refl state.functions, id⟩
  trans _ _ _ h h' := ⟨h.extended.trans h'.extended, h'.wellNamed ∘ h.wellNamed⟩

theorem allowsDeclarations_functionsGrow : AllowsDeclarations FunctionsGrow where
  declare _ := ⟨.refl _, id⟩
  define h := ⟨FunctionTable.extendedBy_of_declare h, fun hnamed => hnamed.declare h⟩

theorem invoke_functionsGrow (config : Config) (rounds calls : Nat) :
    Calling.Keeps FunctionsGrow (invoke config rounds calls) :=
  Calling.keeps_invoke allowsDeclarations_functionsGrow (fun _ _ => id)
    (fun _ _ _ h => ⟨h.extended, h.wellNamed⟩) config rounds calls

/-! ## What a call means -/

/-- What a call does with the body of a function, when `calls` more calls may be nested. -/
def Function.enter (config : Config) (rounds : Nat) :
    Nat → Function → Environment → Position → Action Value
  | 0, f, _, p => Action.fail (.stackOverflow f.name config.maxCallDepth p)
  | calls + 1, f, frame, p => f.run ⟨config, rounds, invoke config rounds calls⟩ frame p

/-- Calls this function, whatever other functions are declared. -/
def Function.call (config : Config) (rounds calls : Nat) (f : Function) (args : List Value)
    (p : Position) : Action Value := do
  let frame ← Action.check (f.frame args p (← Action.environment))
  if config.maxCallDepth ≤ (← Action.depth) then
    Action.fail (.stackOverflow f.name config.maxCallDepth p)
  else f.enter config rounds calls frame p

theorem perform_invoke_of_find? {config : Config} {rounds calls : Nat} {name : String}
    {args : List Value} {p : Position} {f : Function} {state : State}
    (hbuiltin : Builtin.ofName? name = none) (hfind : state.functions.find? name = some f) :
    (invoke config rounds calls name args p).perform state =
      (f.call config rounds calls args p).perform state := by
  have hdispatch : invoke config rounds calls =
      .dispatch config fun f frame p => f.enter config rounds calls frame p := by
    cases calls <;> rfl
  rw [hdispatch]
  unfold Calling.dispatch
  rw [hbuiltin, Action.perform_functions_bind, hfind, ← FunctionTable.name_of_find? hfind]
  rfl

/-- A declaration under a name that is taken is refused. -/
theorem Statement.perform_function_of_find? {ctx : Context} {state : State}
    {definition f : Function} (hfind : state.functions.find? definition.name = some f) :
    ((Statement.function definition).run ctx).perform state =
      .done (Action.refusal definition, state) := by
  unfold run
  rw [Action.perform_functions_bind, FunctionTable.declare_of_find? hfind]
  rfl

theorem Statement.perform_function_of_declare {ctx : Context} {state : State}
    {definition : Function} {functions : FunctionTable}
    (h : state.functions.declare definition = .ok functions) :
    ((Statement.function definition).run ctx).perform state =
      .done (.ok .normal, { state with functions := functions }) := by
  unfold run
  rw [Action.perform_functions_bind, h]
  rfl

namespace Moment

variable {σ : Type} [Console σ] {config : Config} {rounds : Nat} {m m' : Moment σ}

/-- The state and the console when the part has run, however it has ended. -/
def ending (config : Config) (rounds : Nat) (m : Moment σ) : State × σ :=
  let ((_, after), left) := (m.run config rounds).conduct m.console
  (after, left)

theorem functionsGrow_ending (config : Config) (rounds : Nat) (m : Moment σ) :
    FunctionsGrow m.state (m.ending config rounds).1 := by
  have hkeeps : (m.part.run (m.context config rounds)).Keeps FunctionsGrow :=
    m.part.keeps_run allowsDeclarations_functionsGrow (invoke_functionsGrow config rounds m.calls)
  exact (hkeeps m.state).conduct m.console

/-- If what is done after the part inside only adds functions, then the end of the part has them. -/
theorem functionsGrow_ending_of_reaches
    {rest : Except Halt m'.part.Result × State → Dialogue (Except Halt m.part.Result × State)}
    (hrest : ∀ stop, (rest stop).Ends fun (_, after) => FunctionsGrow stop.2 after)
    (hreach : (m.run config rounds).Reaches m.console (m'.run config rounds >>= rest) m'.console) :
    FunctionsGrow (m'.ending config rounds).1 (m.ending config rounds).1 := by
  unfold ending
  rw [hreach.conduct_eq, Dialogue.conduct_bind]
  exact (hrest _).conduct _

theorem Leads.functionsGrow (h : Leads config rounds m m') :
    FunctionsGrow m.state m'.state ∧
      FunctionsGrow (m'.ending config rounds).1 (m.ending config rounds).1 := by
  by_cases hcallers : m'.callers = m.callers
  · obtain ⟨hstate, next, hnext, hreach⟩ := h.resumes allowsDeclarations_functionsGrow
      (invoke_functionsGrow config rounds m.calls) hcallers
    exact ⟨hstate, functionsGrow_ending_of_reaches (Action.ends_resume hnext.keeps) hreach⟩
  · obtain ⟨hfunctions, rest, hrest, hreach⟩ := h.concludes hcallers
    refine ⟨.of_eq hfunctions, functionsGrow_ending_of_reaches (fun stop => ?_) hreach⟩
    exact (hrest stop).mono fun (_, after) hafter => .of_eq (hafter ▸ rfl)

/--
What the instants of a run are followed by. From an instant a part may run as a whole; and when a
moment leads to another one, the part inside comes after the part has begun, and the end of the part
after the end of the part inside.
-/
inductive Follows (config : Config) (rounds : Nat) : State × σ → State × σ → Prop
  | whole (m : Moment σ) : Follows config rounds (m.state, m.console) (m.ending config rounds)
  | inside {m m' : Moment σ} (h : Leads config rounds m m') :
    Follows config rounds (m.state, m.console) (m'.state, m'.console)
  | outside {m m' : Moment σ} (h : Leads config rounds m m') :
    Follows config rounds (m'.ending config rounds) (m.ending config rounds)

variable {instant later : State × σ}

theorem Follows.functionsGrow (h : Follows config rounds instant later) :
    FunctionsGrow instant.1 later.1 := by
  cases h with
  | whole m => exact m.functionsGrow_ending config rounds
  | inside h => exact h.functionsGrow.1
  | outside h => exact h.functionsGrow.2

theorem functionsGrow_of_reflTransGen
    (h : Relation.ReflTransGen (Follows config rounds) instant later) :
    FunctionsGrow instant.1 later.1 := by
  induction h with
  | refl => exact refl_of FunctionsGrow _
  | tail _ hfollows ih => exact trans_of FunctionsGrow ih hfollows.functionsGrow

/--
At every instant the functions have names of their own, a free name can be declared, and a name that
is declared keeps its function: at every later instant it is what a call of the name calls, and
another declaration of the name is refused.
-/
theorem first_declaration_wins {console : σ}
    (hinstant : Relation.ReflTransGen (Follows config rounds) (.initial, console) instant)
    (hlater : Relation.ReflTransGen (Follows config rounds) instant later) :
    instant.1.functions.WellNamed ∧
    (∀ (definition : Function) (ctx : Context), Builtin.ofName? definition.name = none →
      instant.1.functions.find? definition.name = none → ∃ functions : FunctionTable,
        functions.find? definition.name = some definition ∧
        ((Statement.function definition).run ctx).perform instant.1 =
          .done (.ok .normal, { instant.1 with functions := functions })) ∧
    ∀ (name : String) (f : Function), instant.1.functions.find? name = some f →
      f.name = name ∧ later.1.functions.find? name = some f ∧
      (∀ calls args p, (invoke config rounds calls name args p).perform later.1 =
        (f.call config rounds calls args p).perform later.1) ∧
      ∀ (other : Function) (ctx : Context), other.name = name →
        ((Statement.function other).run ctx).perform later.1 =
          .done (Action.refusal other, later.1) := by
  have hnamed := (functionsGrow_of_reflTransGen hinstant).wellNamed FunctionTable.wellNamed_empty
  refine ⟨hnamed, fun definition ctx hbuiltin hfree => ?_, fun name f hfind => ?_⟩
  · have hdeclare := FunctionTable.declare_of_free hbuiltin hfree
    exact ⟨_, FunctionTable.find?_of_declare hdeclare,
      Statement.perform_function_of_declare hdeclare⟩
  · have hfind' := (functionsGrow_of_reflTransGen hlater).extended name f hfind
    refine ⟨FunctionTable.name_of_find? hfind, hfind', fun calls args p =>
      perform_invoke_of_find? (hnamed.ofName?_of_find? hfind) hfind', ?_⟩
    rintro other ctx rfl
    exact Statement.perform_function_of_find? hfind'

/-- A function that is declared in a call outlives the failure of the call. -/
theorem first_declaration_wins_in_failed_call :
    let inner : Function := ⟨"g", [], none, [], .start⟩
    let failing : Statement := .expression (.var "y" .start) .start
    let f : Function := ⟨"f", [], none, [.function inner, failing], .start⟩
    let other : Function := ⟨"g", [], none, [failing], .start⟩
    let moment (part : Part) : Moment Transcript := ⟨part, ⟨.empty, ⟨[f]⟩, 0⟩, ⟨[], ""⟩, 1, []⟩
    let call : Moment Transcript := moment (.call "f" [] .start)
    let later : State := ⟨.empty, ⟨[inner, f]⟩, 0⟩
    (call.run .standard 0).conduct call.console =
        ((.error (.error (.runtime (.undefinedVariable "y" .start))), later), ⟨[], ""⟩) ∧
      (∀ calls args p, (invoke .standard 0 calls "g" args p).perform later =
        (inner.call .standard 0 calls args p).perform later) ∧
      ∀ ctx : Context, ((Statement.function other).run ctx).perform later =
        .done (Action.refusal other, later) := by
  intro inner failing f other moment call later
  let begun : Moment Transcript := ⟨.statement (.function f), .initial, ⟨[], ""⟩, 1, []⟩
  let body : Moment Transcript := ⟨.statements f.body, ⟨.empty, ⟨[f]⟩, 1⟩, ⟨[], ""⟩, 0, [.empty]⟩
  let declaring := body.now (.statement (.function inner))
  have hrun : (call.run .standard 0).conduct call.console =
      ((.error (.error (.runtime (.undefinedVariable "y" .start))), later), ⟨[], ""⟩) := by cbv
  have hbody : call.Leads .standard 0 body :=
    .body rfl (by decide) (by cbv) (by cbv) (by decide) rfl
  have hdeclaring : body.Leads .standard 0 declaring := .first rfl
  have hbegun : Follows .standard 0 (.initial, ⟨[], ""⟩) (call.state, call.console) := by
    have hdeclared : begun.ending .standard 0 = (call.state, call.console) := by cbv
    exact hdeclared ▸ .whole begun
  have hinstant := (Relation.ReflTransGen.single hbegun).tail (.inside hbody) |>.tail
    (.inside hdeclaring) |>.tail (.whole declaring)
  have hlater := (Relation.ReflTransGen.single (Follows.outside hdeclaring)).tail (.outside hbody)
  obtain ⟨-, -, hfixed⟩ := first_declaration_wins hinstant hlater
  obtain ⟨-, -, hcall, hrefused⟩ := hfixed "g" inner (by cbv)
  have hend : (call.ending .standard 0).1 = later := by unfold ending; rw [hrun]
  rw [hend] at hcall hrefused
  exact ⟨hrun, hcall, fun ctx => hrefused other ctx rfl⟩

end Moment

end Arrow
