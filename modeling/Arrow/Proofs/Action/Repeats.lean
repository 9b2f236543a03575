import Arrow.Evaluation.Statement
import Arrow.Proofs.Dialogue.Monologue

/-!
# Actions that repeat

`action.Repeats` says what an action that has gone through, and has read nothing, does from the same
bindings once more, when the functions that it has left are declared. If it has declared none it
goes through as before. Otherwise it writes a beginning of what it has written and is refused the
first function that it has declared, because the name is taken.
-/

namespace Arrow

namespace FunctionTable

variable {functions functions' functions'' : FunctionTable} {definition : Function}

/-- The functions of the table are found in the other one as well. -/
def ExtendedBy (functions functions' : FunctionTable) : Prop :=
  ∀ name f, functions.find? name = some f → functions'.find? name = some f

theorem ExtendedBy.refl (functions : FunctionTable) : functions.ExtendedBy functions :=
  fun _ _ h => h

theorem ExtendedBy.trans (h : functions.ExtendedBy functions')
    (h' : functions'.ExtendedBy functions'') : functions.ExtendedBy functions'' :=
  fun name f hf => h' name f (h name f hf)

theorem find?_eq_none_of_declare (h : functions.declare definition = .ok functions') :
    functions.find? definition.name = none := by
  unfold declare at h
  split at h
  · exact nomatch h
  · rename_i hname
    exact Option.not_isSome_iff_eq_none.1 hname

theorem find?_of_declare (h : functions.declare definition = .ok functions') :
    functions'.find? definition.name = some definition := by
  rw [eq_insert_of_declare h, find?_insert, if_pos rfl]

theorem extendedBy_of_declare (h : functions.declare definition = .ok functions') :
    functions.ExtendedBy functions' := by
  intro name f hf
  rw [eq_insert_of_declare h, find?_insert, if_neg]
  · exact hf
  · rintro rfl
    rw [find?_eq_none_of_declare h] at hf
    exact nomatch hf

/-- A name that is taken is not declared again. -/
theorem declare_of_find? {other : Function} (h : functions.find? definition.name = some other) :
    functions.declare definition =
      .error (.functionAlreadyDefined definition.name definition.position) := by
  unfold declare
  rw [h]
  rfl

end FunctionTable

/-- The function has been declared between the two states. -/
structure Function.IntroducedBetween (definition : Function) (state after : State) : Prop where
  absent : state.functions.find? definition.name = none
  present : after.functions.find? definition.name = some definition

namespace Action

variable {α β : Type}

/-- Stops because the name of the function is taken. -/
def refusal (definition : Function) : Except Halt α :=
  .error (.error (.runtime (.functionAlreadyDefined definition.name definition.position)))

/--
An action that goes through drops no function. Where all functions that it leaves are declared, it
goes through again if it has declared none, and is otherwise refused the first one.
-/
def Repeats (action : Action α) : Prop :=
  ∀ ⦃state value after texts⦄, (action.perform state).Recites (.ok value, after) texts →
    state.functions.ExtendedBy after.functions ∧
    ∀ functions, after.functions.ExtendedBy functions →
      (after.functions = state.functions ∧
        (action.perform { state with functions := functions }).Recites
          (.ok value, { after with functions := functions }) texts) ∨
      ∃ definition stop front, definition.IntroducedBetween state after ∧ front <+: texts ∧
        (action.perform { state with functions := functions }).Recites
          (refusal definition, stop) front

/-- An action that ends at once, and looks at no function. -/
theorem Repeats.of_done {action : Action α} (value : Environment → Nat → α)
    (bound : Environment → Environment)
    (h : ∀ state, action.perform state = .done (.ok (value state.environment state.depth),
      { state with environment := bound state.environment })) : action.Repeats := by
  intro state value after texts hrun
  rw [h] at hrun
  cases hrun
  refine ⟨.refl _, fun functions _ => .inl ⟨rfl, ?_⟩⟩
  rw [h]
  exact .done _

theorem repeats_pure (value : α) : (pure value : Action α).Repeats :=
  .of_done (fun _ _ => value) id fun _ => rfl

theorem repeats_environment : environment.Repeats :=
  .of_done (fun env _ => env) id fun _ => rfl

theorem repeats_depth : depth.Repeats :=
  .of_done (fun _ depth => depth) id fun _ => rfl

theorem repeats_rebind (env : Environment) : (rebind env).Repeats :=
  .of_done (fun _ _ => ()) (fun _ => env) fun _ => rfl

theorem repeats_fail (cause : RuntimeError) : (fail cause : Action α).Repeats := by
  intro state value after texts hrun
  cases hrun

theorem repeats_write (text : String) (p : Position) : (write text p).Repeats := by
  intro state value after texts hrun
  rw [perform_write] at hrun
  cases hrun with
  | write hdone =>
    cases hdone
    refine ⟨.refl _, fun functions _ => .inl ⟨rfl, ?_⟩⟩
    rw [perform_write]
    exact .write (.done _)

theorem repeats_readLine (p : Position) : (readLine p).Repeats := by
  intro state value after texts hrun
  rw [perform_readLine] at hrun
  cases hrun

theorem Repeats.bind {action : Action α} {next : α → Action β} (h : action.Repeats)
    (hnext : ∀ value, (next value).Repeats) : (action >>= next).Repeats := by
  intro state value after texts hrun
  rw [perform_bind] at hrun
  obtain ⟨⟨result, middle⟩, front, rest, hfront, hrest, rfl⟩ := hrun.exists_of_bind
  cases result with
  | error halt => cases hrest
  | ok first =>
    obtain ⟨hmiddle, hagain⟩ := h hfront
    obtain ⟨hafter, hagain'⟩ := hnext first hrest
    refine ⟨hmiddle.trans hafter, fun functions hfunctions => ?_⟩
    rw [perform_bind]
    -- The second part runs again only if the first has not been refused.
    rcases hagain functions (hafter.trans hfunctions) with
      ⟨heq, hfront⟩ | ⟨definition, stop, texts, hnew, htexts, hfront⟩
    · rcases hagain' functions hfunctions with
        ⟨heq', hrest⟩ | ⟨definition, stop, texts, hnew, htexts, hrest⟩
      · exact .inl ⟨heq'.trans heq, hfront.bind hrest⟩
      · exact .inr ⟨definition, stop, front ++ texts, ⟨heq ▸ hnew.absent, hnew.present⟩,
          List.prefix_append_right_inj front |>.2 htexts, hfront.bind hrest⟩
    · exact .inr ⟨definition, stop, texts, ⟨hnew.absent, hafter _ _ hnew.present⟩,
        htexts.trans (List.prefix_append _ _), hfront.bind_done rfl⟩

theorem Repeats.within {action : Action α} (h : action.Repeats) (frame : Environment) :
    (within frame action).Repeats := by
  intro state value after texts hrun
  rw [perform_within] at hrun
  obtain ⟨⟨result, inner⟩, front, rest, hfront, hrest, rfl⟩ := hrun.exists_of_bind
  cases hrest
  obtain ⟨hinner, hagain⟩ := h hfront
  refine ⟨hinner, fun functions hfunctions => ?_⟩
  rw [perform_within]
  rcases hagain functions hfunctions with
    ⟨heq, hfront⟩ | ⟨definition, stop, texts, hnew, htexts, hfront⟩
  · exact .inl ⟨heq, hfront.bind (.done _)⟩
  · exact .inr ⟨definition, { stop with environment := state.environment, depth := stop.depth - 1 },
      texts, ⟨hnew.absent, hnew.present⟩, htexts.trans (List.prefix_append _ _),
      hfront.bind_done rfl⟩

theorem Repeats.loop {round : Action (Option β)} (h : round.Repeats) (rounds : Nat) :
    (loop rounds round).Repeats := by
  induction rounds with
  | zero =>
    intro state value after texts hrun
    cases hrun
  | succ rounds ih =>
    rw [loop_succ]
    refine h.bind fun value => ?_
    cases value with
    | none => exact ih
    | some value => exact repeats_pure value

/-- The table may be read if the action goes on in the same way, or fails, with more functions. -/
theorem Repeats.functions_bind {next : FunctionTable → Action α}
    (h : ∀ functions, (next functions).Repeats)
    (hextended : ∀ functions functions', functions.ExtendedBy functions' →
      next functions' = next functions ∨ ∃ cause, next functions = fail cause) :
    (functions >>= next).Repeats := by
  intro state value after texts hrun
  rw [perform_functions_bind] at hrun
  obtain ⟨hafter, hagain⟩ := h _ hrun
  refine ⟨hafter, fun functions hfunctions => ?_⟩
  rw [perform_functions_bind]
  rcases hextended _ _ (hafter.trans hfunctions) with heq | ⟨cause, hfail⟩
  · rw [heq]
    exact hagain functions hfunctions
  · rw [hfail] at hrun
    cases hrun

theorem repeats_define (definition : Function) :
    Action.Repeats (do
      let functions ← check ((← functions).declare definition)
      redefine functions
      pure Flow.normal) := by
  intro state value after texts hrun
  rw [perform_functions_bind] at hrun
  cases hdeclare : state.functions.declare definition with
  | error cause =>
    rw [hdeclare] at hrun
    cases hrun
  | ok functions =>
    rw [hdeclare] at hrun
    cases hrun
    have hpresent := FunctionTable.find?_of_declare hdeclare
    refine ⟨FunctionTable.extendedBy_of_declare hdeclare, fun functions' hfunctions => .inr ?_⟩
    refine ⟨definition, { state with functions := functions' }, [],
      ⟨FunctionTable.find?_eq_none_of_declare hdeclare, hpresent⟩, List.nil_prefix, ?_⟩
    rw [perform_functions_bind, FunctionTable.declare_of_find? (hfunctions _ _ hpresent)]
    exact .done _

end Action

end Arrow
