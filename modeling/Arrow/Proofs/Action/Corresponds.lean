import Arrow.Action
import Arrow.Proofs.Dialogue.Anonymous
import Arrow.Proofs.Grammar.Moved

/-!
# Actions that correspond

A correspondence says which positions, and which functions, may take the place of each other. Two
actions correspond if from corresponding states they say and ask the same, give related results or
fail with moved errors, and end in corresponding states.
-/

namespace Arrow

/-- Which positions and which functions correspond; the headers of such functions do so, too. -/
structure Correspondence where
  positions : Position → Position → Prop
  functions : Function → Function → Prop
  header : ∀ {f g}, functions f g → f.HeaderMoved positions g

variable {C : Correspondence}

namespace FunctionTable

def Corresponds (C : Correspondence) (functions others : FunctionTable) : Prop :=
  List.Forall₂ C.functions functions.definitions others.definitions

theorem Corresponds.find? {functions others : FunctionTable} (h : functions.Corresponds C others)
    (name : String) : Option.Rel C.functions (functions.find? name) (others.find? name) := by
  obtain ⟨definitions⟩ := functions
  obtain ⟨definitions'⟩ := others
  change List.Forall₂ C.functions definitions definitions' at h
  induction h with
  | nil => exact .none
  | @cons f g _ _ hfunctions _ ih =>
    unfold FunctionTable.find? at ih ⊢
    rw [List.find?_cons, List.find?_cons, (C.header hfunctions).name]
    split
    · exact .some hfunctions
    · exact ih

theorem Corresponds.isEmpty {functions others : FunctionTable}
    (h : functions.Corresponds C others) :
    functions.isEmpty = others.isEmpty :=
  forall₂_isEmpty h

end FunctionTable

/-- The states have the same bindings and the same depth, and their functions correspond. -/
structure State.Corresponds (C : Correspondence) (s t : State) : Prop where
  environment : s.environment = t.environment
  functions : s.functions.Corresponds C t.functions
  depth : s.depth = t.depth

theorem State.corresponds_initial : State.initial.Corresponds C .initial :=
  ⟨rfl, .nil, rfl⟩

/-- Both actions are exhausted or both fail with moved errors. -/
inductive Halt.Moved (R : Position → Position → Prop) : Halt → Halt → Prop
  | error {cause other : RuntimeError} (h : cause.Moved R other) :
    Halt.Moved R (.error (.runtime cause)) (.error (.runtime other))
  | exhausted : Halt.Moved R .exhausted .exhausted

theorem Halt.Moved.eq {halt other : Halt} (h : halt.Moved Eq other) : halt = other := by
  cases h with
  | error h => exact congrArg _ (Error.Moved.eq h)
  | exhausted => rfl

namespace Action

variable {α β α' β' : Type} {V : α → β → Prop} {W : α' → β' → Prop} {p q : Position}

/-- From corresponding states the actions run to related results and to corresponding states. -/
def Corresponds (C : Correspondence) (V : α → β → Prop) (a : Action α) (b : Action β) : Prop :=
  ∀ s t, s.Corresponds C t → (a.perform s).Parallel (fun (result, s) (other, t) =>
    Matched (Halt.Moved C.positions) V result other ∧ s.Corresponds C t) (b.perform t)

theorem corresponds_pure {value : α} {other : β} (h : V value other) :
    Corresponds C V (pure value) (pure other) :=
  fun _ _ hst => .done ⟨.ok h, hst⟩

theorem corresponds_fail {cause other : RuntimeError} (h : cause.Moved C.positions other) :
    Corresponds C V (fail cause) (fail other) :=
  fun _ _ hst => .done ⟨.error (.error h), hst⟩

theorem corresponds_check {x : Except RuntimeError α} {y : Except RuntimeError β}
    (h : Matched (RuntimeError.Moved C.positions) V x y) :
    Corresponds C V (check x) (check y) := by
  cases h with
  | ok h => exact corresponds_pure h
  | error h => exact corresponds_fail h

theorem corresponds_environment : Corresponds C Eq environment environment :=
  fun _ _ hst => .done ⟨.ok hst.environment, hst⟩

theorem corresponds_functions :
    Corresponds C (FunctionTable.Corresponds C) functions functions :=
  fun _ _ hst => .done ⟨.ok hst.functions, hst⟩

theorem corresponds_depth : Corresponds C Eq depth depth :=
  fun _ _ hst => .done ⟨.ok hst.depth, hst⟩

theorem corresponds_rebind (environment : Environment) :
    Corresponds C Eq (rebind environment) (rebind environment) :=
  fun _ _ hst => .done ⟨.ok rfl, rfl, hst.functions, hst.depth⟩

theorem corresponds_redefine {functions others : FunctionTable}
    (h : functions.Corresponds C others) :
    Corresponds C Eq (redefine functions) (redefine others) :=
  fun _ _ hst => .done ⟨.ok rfl, hst.environment, h, hst.depth⟩

theorem corresponds_write (text : String) (hp : C.positions p q) :
    Corresponds C Eq (write text p) (write text q) := by
  intro s t hst
  rw [perform_write, perform_write]
  refine .write fun answer => ?_
  cases answer with
  | ok _ => exact .done ⟨.ok rfl, hst⟩
  | error reason => exact .done ⟨.error (.error ⟨fun _ => rfl, .some hp⟩), hst⟩

theorem corresponds_readLine (hp : C.positions p q) :
    Corresponds C Eq (readLine p) (readLine q) := by
  intro s t hst
  rw [perform_readLine, perform_readLine]
  refine .read fun answer => ?_
  cases answer with
  | ok line => exact .done ⟨.ok rfl, hst⟩
  | error reason => exact .done ⟨.error (.error ⟨fun _ => rfl, .some hp⟩), hst⟩

theorem Corresponds.bind {a : Action α} {b : Action β} {f : α → Action α'} {g : β → Action β'}
    (h : Corresponds C V a b)
    (hnext : ∀ value other, V value other → Corresponds C W (f value) (g other)) :
    Corresponds C W (a >>= f) (b >>= g) := by
  intro s t hst
  rw [perform_bind, perform_bind]
  refine (h s t hst).bind ?_
  rintro ⟨result, s⟩ ⟨other, t⟩ ⟨hresult, hst⟩
  cases hresult with
  | ok hvalue => exact hnext _ _ hvalue s t hst
  | error hhalt => exact .done ⟨.error hhalt, hst⟩

theorem Corresponds.loop {a : Action (Option α)} {b : Action (Option β)}
    (h : Corresponds C (Option.Rel V) a b) (rounds : Nat) :
    Corresponds C V (loop rounds a) (loop rounds b) := by
  induction rounds with
  | zero => exact fun _ _ hst => .done ⟨.error .exhausted, hst⟩
  | succ rounds ih =>
    rw [loop_succ, loop_succ]
    refine h.bind fun value other hvalue => ?_
    cases hvalue with
    | none => exact ih
    | some hvalue => exact corresponds_pure hvalue

theorem Corresponds.within {a : Action α} {b : Action β} (h : Corresponds C V a b)
    (environment : Environment) :
    Corresponds C V (within environment a) (within environment b) := by
  intro s t hst
  rw [perform_within, perform_within]
  have henter : State.Corresponds C { s with environment := environment, depth := s.depth + 1 }
      { t with environment := environment, depth := t.depth + 1 } :=
    ⟨rfl, hst.functions, congrArg (· + 1) hst.depth⟩
  refine (h _ _ henter).bind ?_
  rintro ⟨result, s'⟩ ⟨other, t'⟩ ⟨hresult, hst'⟩
  exact .done ⟨hresult, hst.environment, hst'.functions, congrArg (· - 1) hst'.depth⟩

end Action

end Arrow
