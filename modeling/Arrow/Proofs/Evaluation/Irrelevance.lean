import Arrow.Proofs.Evaluation.Bindings
import Arrow.Proofs.Evaluation.Outcome

/-!
# Names that are not mentioned

A statement binds only names that it mentions itself, for the bindings of a call are gone when it
ends (`Statement.ConfinedTo.keeps_untouched`). Nor does it notice how other names are bound
(`Statement.alike_run`), so the bindings of all other names are neither read nor written
(`unmentioned_irrelevant`).
-/

namespace Arrow

/-- All names outside `names` are bound as they were. -/
def UntouchedOutside (names : Set String) (state after : State) : Prop :=
  after.environment.AgreeOn namesᶜ state.environment

instance (names : Set String) : IsPreorder State (UntouchedOutside names) where
  refl _ _ _ := rfl
  trans _ _ _ h₁ h₂ name hname := (h₂ name hname).trans (h₁ name hname)

theorem SameBindings.untouchedOutside {state after : State} (h : SameBindings state after)
    (names : Set String) : UntouchedOutside names state after := by
  intro name _
  rw [h.1]

theorem Environment.untouched_of_declare {env after : Environment} {name : String} {value : Value}
    {kind : Mutability} {p : Position} (h : env.declare name value kind p = .ok after)
    {names : Set String} (hname : name ∈ names) : after.AgreeOn namesᶜ env := by
  obtain ⟨-, rfl⟩ := eq_overlay_of_declare h
  intro other hother
  rw [get?_overlay, if_neg]
  rintro rfl
  exact hother hname

section

variable {names free callees : Set String} {ctx : Context}

theorem untouched_eval (hcall : ctx.call.Keeps SameBindings) (expr : Expr) :
    (expr.eval ctx.call).Keeps (UntouchedOutside names) :=
  (Expr.keeps_eval hcall expr).mono fun _ _ h => h.untouchedOutside names

mutual

/-- A statement binds what it mentions, and calls in it bind nothing. -/
theorem Statement.ConfinedTo.keeps_untouched (hcall : ctx.call.Keeps SameBindings) :
    ∀ {statement : Statement}, statement.ConfinedTo free callees names →
      (statement.run ctx).Keeps (UntouchedOutside names)
  | .declaration _ _ _ init _, h =>
    (untouched_eval hcall init).bind fun _ => (Action.keeps_check _).bind fun _ =>
      keeps_declare fun _ _ hafter => Environment.untouched_of_declare hafter h.1
  | .assignment _ expr _, h =>
    Action.keeps_environment.bind fun _ => (Action.keeps_check _).bind fun _ =>
      (untouched_eval hcall expr).bind fun _ =>
        keeps_declare fun _ _ hafter => Environment.untouched_of_declare hafter h.1
  | .function _, _ =>
    Action.keeps_functions.bind fun _ => (Action.keeps_check _).bind fun _ =>
      Action.Keeps.bind (fun _ _ _ => rfl) fun _ => Action.keeps_pure _
  | .returnValue expr _, _ => (untouched_eval hcall expr).bind fun _ => Action.keeps_pure _
  | .expression expr _, _ => (untouched_eval hcall expr).bind fun _ => Action.keeps_pure _
  | .conditional branches otherwise _, h => by
    refine (Statement.BranchesConfinedTo.keeps_untouched hcall h.1).bind fun flow => ?_
    cases flow with
    | none => exact Statement.OtherwiseConfinedTo.keeps_untouched hcall h.2
    | some flow => exact Action.keeps_pure _
  | .whileLoop condition _ _, h =>
    Flow.keeps_repeatWhile (untouched_eval hcall condition)
      (Statement.AllConfinedTo.keeps_untouched hcall h.2) ctx.rounds
  | .forLoop _ condition _ _ _, h =>
    Flow.keeps_andThen (Statement.ConfinedTo.keeps_untouched hcall h.1)
      (Flow.keeps_repeatWhile (untouched_eval hcall condition)
        (Flow.keeps_andThen (Statement.AllConfinedTo.keeps_untouched hcall h.2.2.2)
          (Statement.ConfinedTo.keeps_untouched hcall h.2.2.1)) ctx.rounds)

theorem Statement.AllConfinedTo.keeps_untouched (hcall : ctx.call.Keeps SameBindings) :
    ∀ {statements : List Statement}, Statement.AllConfinedTo free callees names statements →
      (Statement.runAll ctx statements).Keeps (UntouchedOutside names)
  | [], _ => Action.keeps_pure _
  | _ :: _, h => Flow.keeps_andThen (h.1.keeps_untouched hcall) (h.2.keeps_untouched hcall)

theorem Statement.BranchesConfinedTo.keeps_untouched (hcall : ctx.call.Keeps SameBindings) :
    ∀ {branches : List Branch}, Statement.BranchesConfinedTo free callees names branches →
      (Statement.runBranches ctx branches).Keeps (UntouchedOutside names)
  | [], _ => Action.keeps_pure _
  | ⟨condition, _⟩ :: _, h => by
    refine (untouched_eval hcall condition).bind fun value => ?_
    split
    · exact (h.2.1.keeps_untouched hcall).bind fun _ => Action.keeps_pure _
    · exact h.2.2.keeps_untouched hcall

theorem Statement.OtherwiseConfinedTo.keeps_untouched (hcall : ctx.call.Keeps SameBindings) :
    ∀ {otherwise : Option (List Statement)},
      Statement.OtherwiseConfinedTo free callees names otherwise →
      (Statement.runOtherwise ctx otherwise).Keeps (UntouchedOutside names)
  | none, _ => Action.keeps_pure _
  | some _, h => Statement.AllConfinedTo.keeps_untouched hcall h

end

end

/--
Take any names that include all those which a statement and the functions declared so far mention
(the parameters of functions may be left out). In two environments that bind these names alike the
statement ends in the same way, says and asks the same and declares the same functions; what it
leaves binds these names alike again, and all other names as they were bound before.
-/
theorem unmentioned_irrelevant {names : Set String} {statement : Statement}
    {functions : FunctionTable} (hstatement : statement.ConfinedTo names .univ names)
    (hfunctions : functions.ConfinedTo names .univ) {first second : Environment}
    (h : first.AgreeOn names second) (config : Config) (rounds calls depth : Nat) {σ : Type}
    [Console σ] (console : σ) :
    let run (env : Environment) :=
      ((statement.run ⟨config, rounds, invoke config rounds calls⟩).perform
        ⟨env, functions, depth⟩).conduct console
    (run first).1.1 = (run second).1.1 ∧ (run first).2 = (run second).2 ∧
      (run first).1.2.functions = (run second).1.2.functions ∧
      (run first).1.2.environment.AgreeOn names (run second).1.2.environment ∧
      ∀ env, (run env).1.2.environment.AgreeOn namesᶜ env := by
  intro run
  have hctx : Context.Alike (fun _ => False) names .univ names
      ⟨config, rounds, invoke config rounds calls⟩ ⟨config, rounds, invoke config rounds calls⟩ :=
    ⟨.refl _ _, .refl _ _, alike_invoke (.refl _ _) (.refl _ _) (.refl _ _) (subset_refl _)⟩
  have hstates : State.Agree names .univ names ⟨first, functions, depth⟩
      ⟨second, functions, depth⟩ := ⟨h, rfl, hfunctions, rfl⟩
  have hkeeps : (statement.run ⟨config, rounds, invoke config rounds calls⟩).Keeps
      (UntouchedOutside names) :=
    hstatement.keeps_untouched (invoke_sameBindings config rounds calls)
  have huntouched (env : Environment) : (run env).1.2.environment.AgreeOn namesᶜ env :=
    (hkeeps ⟨env, functions, depth⟩).conduct console
  rcases (statement.alike_run hctx hstatement _ _ hstates).conduct console with
    ⟨_, _, hwaived⟩ | ⟨⟨hresult, hafter⟩, hconsole⟩
  · exact hwaived.elim
  · exact ⟨hresult, hconsole, hafter.functions, hafter.environment, huntouched⟩

/-- A call that binds `z` and its parameter `n` in its frame does not notice what `w` is. -/
theorem unmentioned_irrelevant_of_call :
    let names : Set String := {"x", "y", "z"}
    let body : List Statement :=
      [.assignment "z" (.var "n" .start) .start, .returnValue (.var "y" .start) .start]
    let functions := FunctionTable.empty.insert
      ⟨"f", [⟨"n", none, .const, .start⟩], none, body, .start⟩
    let statement : Statement := .assignment "x" (.call "f" [.var "y" .start] .start) .start
    let first := Environment.empty.overlay "y" (.bool true) .var
    let second := first.overlay "w" .null .const
    statement.ConfinedTo names .univ names ∧ functions.ConfinedTo names .univ ∧
      first.AgreeOn names second ∧
      let run (env : Environment) :=
        ((statement.run ⟨.standard, 0, invoke .standard 0 1⟩).perform ⟨env, functions, 0⟩).conduct
          (⟨[], ""⟩ : Transcript)
      (run first).1.1 = (run second).1.1 ∧ (run first).2 = (run second).2 ∧
        (run first).1.2.functions = (run second).1.2.functions ∧
        (run first).1.2.environment.AgreeOn names (run second).1.2.environment ∧
        ∀ env, (run env).1.2.environment.AgreeOn namesᶜ env := by
  intro names body functions statement first second
  have hstatement : statement.ConfinedTo names .univ names :=
    ⟨.inl rfl, trivial, .inr (.inl rfl), trivial⟩
  have hfunctions : functions.ConfinedTo names .univ := by
    intro name _ f hf
    rw [FunctionTable.find?_insert] at hf
    split at hf
    · cases hf
      exact ⟨⟨.inl (.inr (.inr rfl)), .inr (List.mem_singleton.2 rfl)⟩, .inl (.inr (.inl rfl)),
        trivial⟩
    · exact nomatch hf
  have hfirst : first.AgreeOn names second := by
    intro name hname
    have hne : "w" ≠ name := by
      rintro rfl
      exact absurd hname (by simp [names])
    exact ((Environment.get?_overlay first "w" name .null .const).trans (if_neg hne)).symm
  exact ⟨hstatement, hfunctions, hfirst,
    unmentioned_irrelevant hstatement hfunctions hfirst .standard 0 1 0 _⟩

end Arrow
