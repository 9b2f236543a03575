import Arrow.Evaluation.Call

/-!
# Values closed under computation

`Value.Closed V` says that `V` holds of what is no array or object, of arrays and objects that are
made of values with `V`, and of the parts of arrays and objects with `V`. Then `V` holds of every
result of the operations on such values, and binding a value with `V` keeps an environment in which
all values have `V`.
-/

namespace Arrow

namespace Value

/-- The value is no array and no object. -/
def IsSimple : Value → Prop
  | array _ => False
  | object _ => False
  | _ => True

/-- What programs do to values with `V` gives values with `V`. -/
structure Closed (V : Value → Prop) : Prop where
  simple : ∀ {value}, value.IsSimple → V value
  array : ∀ {elements}, V (array elements) ↔ ∀ value ∈ elements, V value
  field : ∀ {fields}, V (object fields) → ∀ field ∈ fields, V field.2
  ofFields : ∀ {fields : List (String × Value)}, (∀ field ∈ fields, V field.2) →
    V (ofFields fields)

/-! ## Operations with simple results -/

theorem isSimple_ofLiteral (value : Literal) : (ofLiteral value).IsSimple := by
  cases value <;> trivial

theorem isSimple_of_len {value result : Value} {p : Position} (h : value.len p = .ok result) :
    result.IsSimple := by
  unfold len at h
  split at h
  · cases h
    trivial
  · cases h

theorem isSimple_of_arithmetic {op : Operator} {left right result : Value} {p : Position}
    (h : arithmetic op left right p = .ok result) : result.IsSimple := by
  unfold arithmetic at h
  split at h
  · cases h
    trivial
  · split at h
    · split at h <;> cases h <;> trivial
    · cases h

theorem isSimple_of_comparison {op : Operator} {left right result : Value} {p : Position}
    (h : comparison op left right p = .ok result) : result.IsSimple := by
  unfold comparison at h
  split at h <;> cases h <;> trivial

theorem isSimple_of_logic {op : Operator} {left right result : Value} {p : Position}
    (h : logic op left right p = .ok result) : result.IsSimple := by
  unfold logic at h
  split at h <;> cases h <;> trivial

theorem isSimple_of_binary {op : Operator} {left right result : Value} {p : Position}
    (h : binary op left right p = .ok result) : result.IsSimple := by
  unfold binary at h
  cases op with
  | add | sub | mul | div => exact isSimple_of_arithmetic h
  | equal | notEqual | greater | less | greaterEqual | lessEqual => exact isSimple_of_comparison h
  | and | or => exact isSimple_of_logic h
  | assign | typeOpen | typeClose | not => exact nomatch h

/-! ## Selecting parts -/

theorem mem_of_select {α : Type} {things : List α} {i : Integer} {p : Position} {thing : α}
    (h : select things i p = .ok thing) : thing ∈ things := by
  unfold select at h
  split at h
  case h_1 found hfound =>
    cases h
    obtain ⟨n, -, hn⟩ := Option.bind_eq_some_iff.1 hfound
    exact List.mem_of_getElem? hn
  case h_2 => cases h

namespace Closed

variable {V : Value → Prop} {target selector value : Value} {p : Position}

theorem member (hV : Closed V) (h : V target) {property : String}
    (hvalue : target.member property p = .ok value) : V value := by
  unfold Value.member at hvalue
  dsimp only at hvalue
  split at hvalue
  case h_2 => cases hvalue
  case h_1 found hfound =>
    cases hvalue
    split at hfound
    · obtain ⟨field, hfield, rfl⟩ := Option.map_eq_some_iff.1 hfound
      exact hV.field h field (List.mem_of_find?_eq_some hfield)
    · split at hfound <;> cases hfound
      exact hV.simple trivial
    · split at hfound <;> cases hfound
      exact hV.simple trivial
    · cases hfound

theorem index (hV : Closed V) (h : V target) (hvalue : target.index selector p = .ok value) :
    V value := by
  unfold Value.index at hvalue
  split at hvalue
  case h_1 => exact hV.array.1 h value (mem_of_select hvalue)
  case h_2 content i =>
    cases hselect : select content.toList i p with
    | error cause =>
      rw [hselect] at hvalue
      cases hvalue
    | ok c =>
      rw [hselect] at hvalue
      cases hvalue
      exact hV.simple trivial
  case h_3 => exact hV.member h hvalue
  case h_4 => cases hvalue

end Closed

end Value

/-! ## Environments -/

/-- All values that are bound have `V`. -/
def Environment.All (V : Value → Prop) (env : Environment) : Prop :=
  ∀ name binding, env.get? name = some binding → V binding.value

section

variable {V : Value → Prop} {env : Environment}

theorem Environment.all_empty : empty.All V :=
  nofun

theorem Environment.All.overlay (h : env.All V) (name : String) {value : Value} (hvalue : V value)
    (kind : Mutability) : (env.overlay name value kind).All V := by
  intro other binding hbinding
  rw [get?_overlay] at hbinding
  split at hbinding
  · cases hbinding
    exact hvalue
  · exact h other binding hbinding

theorem Environment.All.declare (h : env.All V) {name : String} {value : Value} (hvalue : V value)
    {kind : Mutability} {p : Position} {after : Environment}
    (hafter : env.declare name value kind p = .ok after) : after.All V := by
  obtain ⟨-, rfl⟩ := eq_overlay_of_declare hafter
  exact h.overlay name hvalue kind

theorem Function.all_overlayAll {name : String} {p : Position} {params : List Parameter}
    {args : List Value} {frame : Environment} (h : env.All V) (hargs : ∀ arg ∈ args, V arg)
    (hframe : overlayAll name p params args env = .ok frame) : frame.All V := by
  induction params generalizing args env with
  | nil =>
    cases hframe
    exact h
  | cons param params ih =>
    cases args with
    | nil =>
      cases hframe
      exact h
    | cons arg args =>
      obtain ⟨harg, hargs⟩ := List.forall_mem_cons.1 hargs
      unfold overlayAll at hframe
      cases hcheck : checkDeclared param.type arg s!"Parameter '{param.name}' of '{name}'" p with
      | error cause =>
        rw [hcheck] at hframe
        cases hframe
      | ok _ =>
        rw [hcheck] at hframe
        exact ih (h.overlay param.name harg param.mutability) hargs hframe

theorem Function.all_frame {f : Function} {args : List Value} {p : Position} {frame : Environment}
    (h : env.All V) (hargs : ∀ arg ∈ args, V arg) (hframe : f.frame args p env = .ok frame) :
    frame.All V := by
  unfold Function.frame at hframe
  split at hframe
  · exact all_overlayAll h hargs hframe
  · cases hframe

end

end Arrow
