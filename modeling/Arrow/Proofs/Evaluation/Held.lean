import Arrow.Proofs.Evaluation.Moments
import Arrow.Proofs.Evaluation.Values
import Arrow.Proofs.Value.Keys
import Mathlib

/-!
# Values that a run holds

`m.Holds value` says that a value is held somewhere at the moment `m` of a run, or is given or left
by the part that runs there. If `V` is closed under what programs do to values, all values that are
held at a moment of a run have `V` (`Moment.Holds.of_closed`): no step that leads from a moment to
another brings about others. So no object that is held has a key twice.
-/

namespace Arrow

variable {V : Value → Prop} {σ : Type} [Console σ]

/-! ## What is held at a moment -/

/-- The values in what a part gives. -/
def Part.values : (part : Part) → part.Result → List Value
  | program _, _ => []
  | outermost _, _ => []
  | statements _, flow => flow.values
  | statement _, flow => flow.values
  | branches _, none => []
  | branches _, some flow => flow.values
  | loop _ _ _, flow => flow.values
  | exprs _, values => values
  | expr _, value => [value]
  | call _ _ _, value => [value]

/--
The value is held somewhere at the moment, or when the part has run that is about to run. The values
of operands are held from the moments of the operands on, since they are given there.
-/
inductive Moment.Holds (config : Config) (rounds : Nat) (m : Moment σ) : Value → Prop
  | bound {name : String} {binding : Binding}
    (h : m.state.environment.get? name = some binding) : Holds config rounds m binding.value
  | waiting {environment : Environment} {name : String} {binding : Binding}
    (hcaller : environment ∈ m.callers) (h : environment.get? name = some binding) :
    Holds config rounds m binding.value
  | argument {name : String} {args : List Value} {p : Position} {value : Value}
    (h : m.part = .call name args p) (hvalue : value ∈ args) : Holds config rounds m value
  /-- An object is made when some of its fields have been evaluated. -/
  | made {done rest : List (String × Expr)} {p : Position} {fields : List (String × Value)}
    {after : State} {left : σ} (h : m.part = .expr (.object (done ++ rest) p))
    (hdone : m.Gives (Expr.evalFields (m.context config rounds).call done) fields after left) :
    Holds config rounds m (.ofFields fields)
  | given {result : m.part.Result} {after : State} {left : σ} {value : Value}
    (h : m.Gives (m.part.run (m.context config rounds)) result after left)
    (hvalue : value ∈ m.part.values result) : Holds config rounds m value
  /-- However the part ends, it leaves bindings. -/
  | left {name : String} {binding : Binding}
    (h : ((m.run config rounds).conduct m.console).1.2.environment.get? name = some binding) :
    Holds config rounds m binding.value
  | element {elements : List Value} {value : Value} (h : Holds config rounds m (.array elements))
    (hvalue : value ∈ elements) : Holds config rounds m value
  | field {fields : List (String × Value)} {field : String × Value}
    (h : Holds config rounds m (.object fields)) (hfield : field ∈ fields) :
    Holds config rounds m field.2

/-! ## What all values have that are held -/

/-- The arguments have `V`, if the part is a call. -/
def Part.AllArgs (V : Value → Prop) : Part → Prop
  | call _ args _ => ∀ arg ∈ args, V arg
  | _ => True

/-- A call is never the first thing that a part does. -/
theorem Part.allArgs_of_first? {rounds : Nat} {part inner : Part}
    (h : part.first? rounds = some inner) : inner.AllArgs V := by
  unfold first? at h
  split at h <;> cases h <;> trivial

/-- From a state in which all bound values have `V`, a part gives values with `V`. -/
theorem Part.yields_run (hV : Value.Closed V) {ctx : Context} (hcall : ctx.call.Yields V)
    {part : Part} (hargs : part.AllArgs V) :
    (part.run ctx).Yields (State.AllBound V) fun result =>
      ∀ value ∈ part.values result, V value := by
  cases part with
  | program whole => exact (whole.yields_run hV hcall).mono fun _ _ => List.forall_mem_nil _
  | outermost body =>
    exact (Program.yields_runBody hV hcall body).mono fun _ _ => List.forall_mem_nil _
  | statements body => exact Statement.yields_runAll hV hcall body
  | statement single => exact single.yields_run hV hcall
  | branches cases =>
    refine (Statement.yields_runBranches hV hcall cases).mono fun result hresult => ?_
    cases result with
    | none => exact List.forall_mem_nil _
    | some flow => exact hresult flow rfl
  | loop rounds condition body =>
    exact Flow.yields_repeatWhile rounds (condition.yields_eval hV hcall)
      (Statement.yields_runAll hV hcall body)
  | exprs several => exact Expr.yields_evalAll hV hcall several
  | expr single =>
    exact (single.yields_eval hV hcall).mono fun _ => List.forall_mem_singleton.2
  | call name args p =>
    exact (hcall name args p hargs).mono fun _ => List.forall_mem_singleton.2

namespace Moment

/-- All values in the environments of a moment have `V`, and the arguments of a call there. -/
structure All (V : Value → Prop) (m : Moment σ) : Prop where
  bound : m.state.AllBound V
  waiting : ∀ environment ∈ m.callers, environment.All V
  args : m.part.AllArgs V

variable {config : Config} {rounds : Nat} {m m' : Moment σ}

/-- What an action yields from such a moment. -/
theorem Gives.yields {α : Type} {action : Action α} {Q : α → Prop} {value : α} {after : State}
    {left : σ} (h : m.Gives action value after left)
    (hyields : action.Yields (State.AllBound V) Q) (hm : m.All V) :
    after.AllBound V ∧ Q value := by
  have hends := (hyields m.state hm.bound).conduct m.console
  rw [h] at hends
  exact ⟨hends.1, hends.2 value rfl⟩

/-- Wherever a moment leads to, all values have `V` again. -/
theorem All.leads (hV : Value.Closed V) (hm : m.All V) (h : Leads config rounds m m') :
    m'.All V := by
  have hcall : (m.context config rounds).call.Yields V := Calling.yields_invoke hV _ _ _
  cases h with
  | first h => exact ⟨hm.bound, hm.waiting, Part.allArgs_of_first? h⟩
  | entryPoint _ hbody _ _ =>
    exact ⟨(hbody.yields (Program.yields_runBody hV hcall _) hm).1, hm.waiting,
      List.forall_mem_nil _⟩
  | outermost _ hfirst =>
    exact ⟨(hfirst.yields (Statement.yields_run hV hcall _) hm).1, hm.waiting, trivial⟩
  | statements _ hfirst =>
    exact ⟨(hfirst.yields (Statement.yields_run hV hcall _) hm).1, hm.waiting, trivial⟩
  | assignment _ _ => exact ⟨hm.bound, hm.waiting, trivial⟩
  | otherwise _ hbranches =>
    exact ⟨(hbranches.yields (Statement.yields_runBranches hV hcall _) hm).1, hm.waiting, trivial⟩
  | forLoop _ hinit =>
    exact ⟨(hinit.yields (Statement.yields_run hV hcall _) hm).1, hm.waiting, trivial⟩
  | branch _ hcondition _ =>
    exact ⟨(hcondition.yields (Expr.yields_eval hV hcall _) hm).1, hm.waiting, trivial⟩
  | branches _ hcondition _ =>
    exact ⟨(hcondition.yields (Expr.yields_eval hV hcall _) hm).1, hm.waiting, trivial⟩
  | round _ hcondition _ =>
    exact ⟨(hcondition.yields (Expr.yields_eval hV hcall _) hm).1, hm.waiting, trivial⟩
  | loop _ hcondition _ hbody =>
    have hround := (hcondition.yields (Expr.yields_eval hV hcall _) hm).1
    exact ⟨(hbody.yields (Statement.yields_runAll hV hcall _) ⟨hround, hm.waiting, trivial⟩).1,
      hm.waiting, trivial⟩
  | exprs _ hfirst =>
    exact ⟨(hfirst.yields (Expr.yields_eval hV hcall _) hm).1, hm.waiting, trivial⟩
  | arguments _ hargs =>
    -- Only here does a moment lead to a call, whose arguments are what its operands have given.
    obtain ⟨hafter, hvalues⟩ := hargs.yields (Expr.yields_evalAll hV hcall _) hm
    exact ⟨hafter, hm.waiting, hvalues⟩
  | body h hbuiltin hfind hframe hdepth hcalls =>
    have hargs := hm.args
    rw [h] at hargs
    exact ⟨Function.all_frame hm.bound hargs hframe, List.forall_mem_cons.2 ⟨hm.bound, hm.waiting⟩,
      trivial⟩

theorem VisitedBy.all (hV : Value.Closed V) {program : Program} {console : σ}
    (h : m.VisitedBy config rounds program console) : m.All V := by
  induction h with
  | refl => exact ⟨Environment.all_empty, List.forall_mem_nil _, trivial⟩
  | tail _ hleads ih => exact ih.leads hV hleads

/-- All values that are held at a moment of a run have `V`. -/
theorem Holds.of_closed (hV : Value.Closed V) (hm : m.All V) {value : Value}
    (h : m.Holds config rounds value) : V value := by
  have hcall : (m.context config rounds).call.Yields V := Calling.yields_invoke hV _ _ _
  have hpart := Part.yields_run hV hcall hm.args
  induction h with
  | bound h => exact hm.bound _ _ h
  | waiting hcaller h => exact hm.waiting _ hcaller _ _ h
  | argument h hvalue =>
    have hargs := hm.args
    rw [h] at hargs
    exact hargs _ hvalue
  | made h hdone => exact hV.ofFields (hdone.yields (Expr.yields_evalFields hV hcall _) hm).2
  | given h hvalue => exact (h.yields hpart hm).2 _ hvalue
  | left h => exact ((hpart m.state hm.bound).conduct m.console).1 _ _ h
  | element _ hvalue ih => exact hV.array.1 ih _ hvalue
  | field _ hfield ih => exact hV.field ih _ hfield

end Moment

/--
In whatever run of a program an object is held, at whatever moment and wherever, its keys are
distinct. So the names that it has as members are the keys of its fields, each with the value of
that field; indexing by a text finds the same; and its length counts these names.
-/
theorem held_object_keys_distinct {config : Config} {rounds : Nat} {program : Program} {console : σ}
    {m : Moment σ} (hvisited : m.VisitedBy config rounds program console)
    {fields : List (String × Value)} (hheld : m.Holds config rounds (.object fields)) :
    (fields.map (·.1)).Nodup ∧ ∀ p,
      (∀ key value, (Value.object fields).member key p = .ok value ↔ (key, value) ∈ fields) ∧
      (∀ key, (Value.object fields).index (.text key) p = (Value.object fields).member key p) ∧
      (Value.object fields).len p = .ok (.integer (Integer.ofLength
        {key | ∃ value, (Value.object fields).member key p = .ok value}.ncard)) := by
  have hkeys : (Value.object fields).KeysDistinct :=
    hheld.of_closed Value.closed_keysDistinct (hvisited.all Value.closed_keysDistinct)
  exact ⟨hkeys.1, Value.fields_agree hkeys.1⟩

/-- An object in an array that is bound by a caller, while the body of the function runs. -/
theorem held_object_keys_distinct_in_call :
    let text (content : String) : Expr := .literal (.text content) .start
    let body : List Statement := [.expression (.var "o" .start) .start]
    let f : Function := ⟨"f", [⟨"o", none, .const, .start⟩], none, body, .start⟩
    let init : Expr :=
      .array [.object [("k", text "a"), ("l", text "b"), ("k", text "c")] .start] .start
    let program : Program := ⟨[.function f, .declaration .const "x" none init .start,
      .expression (.call "f" [.var "x" .start] .start) .start]⟩
    let fields : List (String × Value) := [("k", .text "c"), ("l", .text "b")]
    let outer := Environment.empty.overlay "x" (.array [.object fields]) .const
    let inner := outer.overlay "o" (.array [.object fields]) .const
    let m : Moment Transcript := ⟨.statements body, ⟨inner, ⟨[f]⟩, 1⟩, ⟨[], ""⟩, 127, [outer]⟩
    m.VisitedBy .standard 0 program ⟨[], ""⟩ ∧ m.Holds .standard 0 (.object fields) ∧
      (fields.map (·.1)).Nodup ∧ ∀ p,
        (∀ key value, (Value.object fields).member key p = .ok value ↔ (key, value) ∈ fields) ∧
        (∀ key, (Value.object fields).index (.text key) p = (Value.object fields).member key p) ∧
        (Value.object fields).len p = .ok (.integer (Integer.ofLength
          {key | ∃ value, (Value.object fields).member key p = .ok value}.ncard)) := by
  intro text body f init program fields outer inner m
  let console : Transcript := ⟨[], ""⟩
  let ctx := Context.outermost .standard 0
  have hfunction : (⟨.outermost program.body, .initial, console, 128, []⟩ : Moment _).Gives
      ((Statement.function f).run ctx) .normal ⟨.empty, ⟨[f]⟩, 0⟩ console := by cbv
  have hdeclaration : (⟨.outermost (program.body.drop 1), ⟨.empty, ⟨[f]⟩, 0⟩, console, 128, []⟩ :
      Moment _).Gives ((Statement.declaration .const "x" none init .start).run ctx) .normal
        ⟨outer, ⟨[f]⟩, 0⟩ console := by cbv
  have hargs : (⟨.expr (.call "f" [.var "x" .start] .start), ⟨outer, ⟨[f]⟩, 0⟩, console, 128, []⟩ :
      Moment _).Gives (Expr.evalAll ctx.call [.var "x" .start]) [.array [.object fields]]
        ⟨outer, ⟨[f]⟩, 0⟩ console := by cbv
  let called : Moment Transcript :=
    ⟨.call "f" [.array [.object fields]] .start, ⟨outer, ⟨[f]⟩, 0⟩, console, 128, []⟩
  have hbody : Moment.Leads .standard 0 called m :=
    .body (f := f) rfl rfl rfl rfl (Nat.succ_pos 127) rfl
  have hvisited : m.VisitedBy .standard 0 program ⟨[], ""⟩ :=
    .head (.first rfl) <| .head (.outermost rfl hfunction) <| .head (.outermost rfl hdeclaration) <|
      .head (.first rfl) <| .head (.first rfl) <| .head (.arguments rfl hargs) <| .single hbody
  have hbound : outer.get? "x" = some ⟨.array [.object fields], .const⟩ := rfl
  have hheld : m.Holds .standard 0 (.object fields) :=
    .element (.waiting List.mem_cons_self hbound) List.mem_cons_self
  exact ⟨hvisited, hheld, held_object_keys_distinct hvisited hheld⟩

end Arrow
