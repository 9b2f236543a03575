import Arrow.Proofs.Float.Amount
import Arrow.Proofs.Value.Closed

/-!
# Values that equal themselves

Strict equality compares values of one kind as equality does, so it never holds where equality does
not. Both go through arrays and objects part by part, and only NaN differs from itself: a value
equals itself, in either sense, exactly when no NaN stands in it (`Value.strictEq_refines_looseEq`).
-/

namespace Arrow

namespace Value

/-! ## Parts of values -/

/-- A value stands in another one: at the top, in an array or in a field, however deep. -/
inductive StandsIn (part : Value) : Value → Prop
  | here : StandsIn part part
  | element {elements : List Value} {value : Value} (hvalue : value ∈ elements)
      (h : StandsIn part value) : StandsIn part (array elements)
  | field {fields : List (String × Value)} {field : String × Value} (hfield : field ∈ fields)
      (h : StandsIn part field.2) : StandsIn part (object fields)

/-- No NaN stands in the value. -/
def NaNFree (value : Value) : Prop :=
  ∀ x, StandsIn (float x) value → x.isNaN = false

theorem nanFree_float_iff (x : Float) : NaNFree (float x) ↔ x.isNaN = false := by
  constructor
  · exact fun h => h x .here
  · rintro h y (_ | _)
    exact h

theorem nanFree_of_isSimple {value : Value} (h : value.IsSimple) (hkind : value.kind ≠ .float) :
    NaNFree value := by
  rintro x (_ | _ | _)
  · exact absurd rfl hkind
  · exact h.elim
  · exact h.elim

theorem nanFree_array_iff {elements : List Value} :
    NaNFree (array elements) ↔ ∀ value ∈ elements, NaNFree value := by
  constructor
  · exact fun h value hvalue x hx => h x (.element hvalue hx)
  · rintro h x (_ | ⟨hvalue, hx⟩)
    exact h _ hvalue x hx

theorem nanFree_object_iff {fields : List (String × Value)} :
    NaNFree (object fields) ↔ ∀ field ∈ fields, NaNFree field.2 := by
  constructor
  · exact fun h field hfield x hx => h x (.field hfield hx)
  · rintro h x (_ | _ | ⟨hfield, hx⟩)
    exact h _ hfield x hx

/-- Induction on the parts of arrays and objects. -/
@[elab_as_elim]
theorem byParts {P : Value → Prop} (simple : ∀ value, value.IsSimple → P value)
    (array : ∀ elements, (∀ value ∈ elements, P value) → P (array elements))
    (object : ∀ fields, (∀ field ∈ fields, P field.2) → P (object fields)) : ∀ value, P value
  | .array elements => array elements fun value _ => byParts simple array object value
  | .object fields => object fields fun field hfield =>
    have hlt : sizeOf field.2 < sizeOf fields := by
      have hmem := List.sizeOf_lt_of_mem hfield
      obtain ⟨key, value⟩ := field
      rw [Prod.mk.sizeOf_spec] at hmem
      show sizeOf value < sizeOf fields
      omega
    byParts simple array object field.2
  | .integer n => simple (.integer n) trivial
  | .float x => simple (.float x) trivial
  | .text content => simple (.text content) trivial
  | .bool b => simple (.bool b) trivial
  | .null => simple .null trivial

/-- What fails of NaN and holds of whatever has all its parts holds of the values free of NaN. -/
theorem iff_nanFree {R : Value → Prop} (float : ∀ x, R (float x) ↔ x.isNaN = false)
    (simple : ∀ value, value.IsSimple → value.kind ≠ .float → R value)
    (array : ∀ elements, R (array elements) ↔ ∀ value ∈ elements, R value)
    (object : ∀ fields, R (object fields) ↔ ∀ field ∈ fields, R field.2) (value : Value) :
    R value ↔ NaNFree value := by
  induction value using byParts with
  | simple value h =>
    by_cases hkind : value.kind = .float
    · cases value <;> cases hkind
      rw [float, nanFree_float_iff]
    · exact iff_of_true (simple value h hkind) (nanFree_of_isSimple h hkind)
  | array elements ih =>
    rw [array, nanFree_array_iff]
    exact forall₂_congr ih
  | object fields ih =>
    rw [object, nanFree_object_iff]
    exact forall₂_congr ih

/-! ## Values beside themselves -/

theorem iff_forall_mem_of_cons {α : Type} {P : List α → Prop} {p : α → Prop} (nil : P [])
    (cons : ∀ a as, P (a :: as) ↔ p a ∧ P as) (as : List α) : P as ↔ ∀ a ∈ as, p a := by
  induction as with
  | nil => exact iff_of_true nil nofun
  | cons a as ih => rw [cons, ih, List.forall_mem_cons]

theorem looseEqElements_self_iff (elements : List Value) :
    looseEqElements elements elements ↔ ∀ value ∈ elements, looseEq value value :=
  iff_forall_mem_of_cons (P := fun elements => looseEqElements elements elements) rfl
    (fun _ _ => Bool.and_eq_true_iff) elements

theorem strictEqElements_self_iff (elements : List Value) :
    strictEqElements elements elements ↔ ∀ value ∈ elements, strictEq value value :=
  iff_forall_mem_of_cons (P := fun elements => strictEqElements elements elements) rfl
    (fun _ _ => Bool.and_eq_true_iff) elements

theorem looseEqFields_self_iff (fields : List (String × Value)) :
    looseEqFields fields fields ↔ ∀ field ∈ fields, looseEq field.2 field.2 := by
  refine iff_forall_mem_of_cons (P := fun fields => looseEqFields fields fields) rfl
    (fun (key, value) rest => ?_) fields
  show (decide (key = key) && looseEq value value && looseEqFields rest rest) = true ↔ _
  rw [decide_eq_true rfl, Bool.true_and, Bool.and_eq_true]

theorem strictEqFields_self_iff (fields : List (String × Value)) :
    strictEqFields fields fields ↔ ∀ field ∈ fields, strictEq field.2 field.2 := by
  refine iff_forall_mem_of_cons (P := fun fields => strictEqFields fields fields) rfl
    (fun (key, value) rest => ?_) fields
  show (decide (key = key) && strictEq value value && strictEqFields rest rest) = true ↔ _
  rw [decide_eq_true rfl, Bool.true_and, Bool.and_eq_true]

theorem looseEq_self_iff (value : Value) : looseEq value value ↔ NaNFree value := by
  refine iff_nanFree (R := fun value => looseEq value value) float_beq_self_iff ?_
    looseEqElements_self_iff looseEqFields_self_iff value
  intro value hsimple hkind
  cases value <;>
    first | exact absurd rfl hkind | exact hsimple.elim | rfl | exact decide_eq_true rfl

theorem strictEq_self_iff (value : Value) : strictEq value value ↔ NaNFree value := by
  refine iff_nanFree (R := fun value => strictEq value value) float_beq_self_iff ?_
    strictEqElements_self_iff strictEqFields_self_iff value
  intro value hsimple hkind
  cases value <;>
    first | exact absurd rfl hkind | exact hsimple.elim | rfl | exact decide_eq_true rfl

/-! ## Refinement -/

mutual

theorem looseEq_of_strictEq {a b : Value} (h : strictEq a b) : looseEq a b := by
  cases a <;> cases b <;> first | exact absurd h Bool.false_ne_true | skip
  case array.array as bs => exact looseEqElements_of_strictEqElements h
  case object.object as bs => exact looseEqFields_of_strictEqFields h
  all_goals exact h

theorem looseEqElements_of_strictEqElements :
    ∀ {as bs : List Value}, strictEqElements as bs → looseEqElements as bs
  | [], [], _ => rfl
  | _ :: _, _ :: _, h => by
    obtain ⟨hvalue, hrest⟩ := Bool.and_eq_true_iff.1 h
    exact Bool.and_eq_true_iff.2
      ⟨looseEq_of_strictEq hvalue, looseEqElements_of_strictEqElements hrest⟩

theorem looseEqFields_of_strictEqFields :
    ∀ {as bs : List (String × Value)}, strictEqFields as bs → looseEqFields as bs
  | [], [], _ => rfl
  | _ :: _, _ :: _, h => by
    obtain ⟨hfield, hrest⟩ := Bool.and_eq_true_iff.1 h
    obtain ⟨hkey, hvalue⟩ := Bool.and_eq_true_iff.1 hfield
    exact Bool.and_eq_true_iff.2 ⟨Bool.and_eq_true_iff.2 ⟨hkey, looseEq_of_strictEq hvalue⟩,
      looseEqFields_of_strictEqFields hrest⟩

end

/--
Values that are equal throughout are equal, and in either sense a value equals itself exactly when
no NaN stands in it.
-/
theorem strictEq_refines_looseEq (a b value : Value) :
    (strictEq a b → looseEq a b) ∧ (looseEq value value ↔ NaNFree value) ∧
    (strictEq value value ↔ NaNFree value) :=
  ⟨looseEq_of_strictEq, looseEq_self_iff value, strictEq_self_iff value⟩

theorem strictEq_refines_looseEq_of_zeros :
    strictEq (array [object [("zero", float 0.0)]]) (array [object [("zero", float (-0.0))]]) ∧
    looseEq (array [object [("zero", float 0.0)]]) (array [object [("zero", float (-0.0))]]) := by
  have hstrict :
      strictEq (array [object [("zero", float 0.0)]]) (array [object [("zero", float (-0.0))]]) := by
    decide
  exact ⟨hstrict, (strictEq_refines_looseEq _ _ null).1 hstrict⟩

end Value

end Arrow
