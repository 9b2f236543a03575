import Arrow.Proofs.Evaluation.Agreement
import Mathlib

/-!
# What a call sees of its caller

The frame of a call is the environment of its caller, so a name that is free in the called function
may be bound by the caller itself, as a parameter or a local. A call cannot tell callers apart if
and only if no such name is free in the functions that it can reach.
-/

namespace Arrow

/-- The environment binds every name as `globals` does, except for those in `own`. -/
def Environment.ExtendsBy (own : Set String) (env globals : Environment) : Prop :=
  ∀ name, name ∉ own → env.get? name = globals.get? name

theorem Environment.extendsBy_overlay {own : Set String} {name : String} (h : name ∈ own)
    (globals : Environment) (value : Value) (kind : Mutability) :
    (globals.overlay name value kind).ExtendsBy own globals := by
  intro other hother
  rw [get?_overlay, if_neg]
  rintro rfl
  exact hother h

theorem Environment.ExtendsBy.agreeOn {own free : Set String} {globals e e' : Environment}
    (he : e.ExtendsBy own globals) (he' : e'.ExtendsBy own globals) (h : Disjoint own free) :
    e.AgreeOn free e' := by
  intro name hname
  have hown : name ∉ own := fun hown => Set.disjoint_left.1 h hown hname
  rw [he name hown, he' name hown]

/-- All that the caller of an action can notice, apart from its own bindings. -/
def Action.noticed {α : Type} (action : Action α) (state : State) :
    Dialogue (Except Halt α × FunctionTable) :=
  (fun (result, after) => (result, after.functions)) <$> action.perform state

/-! ## Calls that read a name -/

/-- The function named `f` that returns what `name` is bound to. -/
def Function.reader (name : String) : Function :=
  ⟨"f", [], none, [.returnValue (.var name .start) .start], .start⟩

theorem Function.reader_confinedTo {name : String} {free : Set String} (h : name ∈ free)
    (callees : Set String) : (reader name).ConfinedTo free callees :=
  ⟨Or.inl h, trivial⟩

theorem Expr.perform_var {name : String} {binding : Binding} {state : State}
    (h : state.environment.get? name = some binding) (call : Calling) (p : Position) :
    ((Expr.var name p).eval call).perform state = .done (.ok binding.value, state) := by
  rw [Expr.eval, Action.perform_environment_bind, h]
  rfl

theorem Function.perform_run_reader {name : String} {env : Environment} {binding : Binding}
    (h : env.get? name = some binding) (ctx : Context) (state : State) (p : Position) :
    ((reader name).run ctx env p).perform state = .done (.ok binding.value, state) := by
  have hread : ((Expr.var name .start).eval ctx.call).perform
      { state with environment := env, depth := state.depth + 1 } =
      .done (.ok binding.value, { state with environment := env, depth := state.depth + 1 }) :=
    Expr.perform_var h ctx.call .start
  have hbody : (Statement.runAll ctx (reader name).body).perform
      { state with environment := env, depth := state.depth + 1 } =
      .done (.ok (.returned binding.value .start),
        { state with environment := env, depth := state.depth + 1 }) := by
    show Action.perform (Flow.andThen (Statement.run ctx (.returnValue _ _)) _) _ = _
    unfold Flow.andThen
    rw [Action.perform_bind, Statement.run, Action.perform_bind, hread]
    rfl
  unfold Function.run
  rw [Action.perform_bind, Action.perform_within, hbody]
  rfl

theorem noticed_reader {name : String} {env : Environment} {binding : Binding}
    (h : env.get? name = some binding) :
    (invoke .standard 0 1 "f" [] .start).noticed
        ⟨env, FunctionTable.empty.insert (.reader name), 0⟩ =
      .done (.ok binding.value, FunctionTable.empty.insert (.reader name)) := by
  have hfind : (FunctionTable.empty.insert (.reader name)).find? "f" = some (.reader name) := rfl
  have hdepth : 0 < Config.standard.maxCallDepth := by decide
  unfold Action.noticed invoke
  rw [Calling.perform_dispatch rfl hfind rfl hdepth, Function.perform_run_reader h]
  rfl

/-! ## Isolation -/

theorem invoke_noticed_eq {own free callees : Set String} (h : Disjoint own free)
    {globals e e' : Environment} (he : e.ExtendsBy own globals) (he' : e'.ExtendsBy own globals)
    (config : Config) (rounds calls : Nat) {functions : FunctionTable}
    (hfunctions : functions.ConfinedTo free callees) {name : String} (hname : name ∈ callees)
    (args : List Value) (p : Position) (depth : Nat) :
    (invoke config rounds calls name args p).noticed ⟨e, functions, depth⟩ =
      (invoke config rounds calls name args p).noticed ⟨e', functions, depth⟩ := by
  have hstates : State.Agree free callees free ⟨e, functions, depth⟩ ⟨e', functions, depth⟩ :=
    ⟨he.agreeOn he' h, rfl, hfunctions, rfl⟩
  have halike : Calling.Alike (fun _ => False) free callees free (invoke config rounds calls)
      (invoke config rounds calls) :=
    alike_invoke (.refl _ config) (.refl _ rounds) (.refl _ calls) (subset_refl free)
  refine (halike name hname args p _ _ hstates).map_eq ?_ ?_
  · rintro ending ⟨halt, _, hwaived⟩
    exact hwaived
  · rintro ⟨result, after⟩ ⟨_, after'⟩ ⟨rfl, hafter⟩
    show (result, after.functions) = (result, after'.functions)
    rw [hafter.functions]

/--
A call gives the same result, says and asks the same and declares the same functions, whatever its
callers have bound besides the globals, if and only if they have bound none of the names that may be
free in the functions that it reaches. So a call is not isolated from its callers.
-/
theorem invoke_isolated_iff (globals : Environment) (own free : Set String) :
    (∀ e e' : Environment, e.ExtendsBy own globals → e'.ExtendsBy own globals →
      ∀ (config : Config) (rounds calls depth : Nat) (callees : Set String)
        (functions : FunctionTable), functions.ConfinedTo free callees →
      ∀ name ∈ callees, ∀ (args : List Value) (p : Position),
        (invoke config rounds calls name args p).noticed ⟨e, functions, depth⟩ =
          (invoke config rounds calls name args p).noticed ⟨e', functions, depth⟩) ↔
      Disjoint own free := by
  constructor
  · intro h
    refine Set.disjoint_left.2 fun name hown hfree => ?_
    -- A function that returns `name` tells callers apart that have bound it to different values.
    have hfunctions : (FunctionTable.empty.insert (.reader name)).ConfinedTo free {"f"} := by
      intro other _ f hf
      rw [FunctionTable.find?_insert] at hf
      split at hf
      · cases hf
        exact Function.reader_confinedTo hfree _
      · exact nomatch hf
    have hbound (value : Value) :
        (globals.overlay name value .var).get? name = some ⟨value, .var⟩ := by
      rw [Environment.get?_overlay, if_pos rfl]
    have heq := h _ _ (Environment.extendsBy_overlay hown globals (.bool false) .var)
      (Environment.extendsBy_overlay hown globals (.bool true) .var) .standard 0 1 0 {"f"} _
      hfunctions "f" rfl [] .start
    rw [noticed_reader (hbound _), noticed_reader (hbound _)] at heq
    exact nomatch heq
  · intro h e e' he he' config rounds calls depth callees functions hfunctions name hname args p
    exact invoke_noticed_eq h he he' config rounds calls hfunctions hname args p depth

/-- The parameter `x` of a caller answers for a name that no global has. -/
theorem invoke_sees_parameter :
    let ofCaller (argument : Bool) := Environment.empty.overlay "x" (.bool argument) .var
    (ofCaller false).ExtendsBy {"x"} .empty ∧ (ofCaller true).ExtendsBy {"x"} .empty ∧
      (invoke .standard 0 1 "f" [] .start).noticed
          ⟨ofCaller false, FunctionTable.empty.insert (.reader "x"), 0⟩ ≠
        (invoke .standard 0 1 "f" [] .start).noticed
          ⟨ofCaller true, FunctionTable.empty.insert (.reader "x"), 0⟩ := by
  have hown : "x" ∈ ({"x"} : Set String) := rfl
  refine ⟨Environment.extendsBy_overlay hown _ _ _, Environment.extendsBy_overlay hown _ _ _, ?_⟩
  have hbound (argument : Bool) : (Environment.empty.overlay "x" (.bool argument) .var).get? "x" =
      some ⟨.bool argument, .var⟩ := rfl
  rw [noticed_reader (hbound false), noticed_reader (hbound true)]
  exact fun h => nomatch h

end Arrow
