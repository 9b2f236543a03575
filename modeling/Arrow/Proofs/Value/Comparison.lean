import Arrow.Value.Operation

/-!
# Comparisons agree with each other

Equality and order are two case tables over pairs of kinds. Values of different kinds meet as
numbers in both (`Value.looseEq_of_kind_ne`, `Value.looseCompare?_of_kind_ne`), so that what the
tables say of numbers carries over: equality is symmetric, the order turns round when the values
change places, and ordered values are equal exactly when neither comes first
(`Value.looseEq_looseCompare?_coherent`).
-/

namespace Arrow

/-! ## Floating-point numbers -/

open Float.Model (UnpackedFloat)

theorem magnitude_swap (e f : Int) (m n : Nat) :
    (compare f e).then (compare n m) = ((compare e f).then (compare m n)).swap := by
  rw [Ordering.swap_then, ← Std.OrientedOrd.eq_swap, ← Std.OrientedOrd.eq_swap]

/-- All but two numbers with mantissas of one sign is settled by the signs and the shapes. -/
theorem unpackedCompare_swap (x y : UnpackedFloat) :
    y.compare x = (x.compare y).map Ordering.swap := by
  rcases x with ⟨⟨⟩⟩ | _ | ⟨⟨⟩⟩ | ⟨⟨⟩, m, e, _⟩ <;>
    rcases y with ⟨⟨⟩⟩ | _ | ⟨⟨⟩⟩ | ⟨⟨⟩, n, f, _⟩ <;> try rfl
  case finite.negative.finite.negative =>
    exact congrArg (fun order => some order.swap) (magnitude_swap e f m n)
  case finite.positive.finite.positive => exact congrArg some (magnitude_swap e f m n)

theorem lt_iff_compare (x y : Float) : x < y ↔ x.toModel.compare y.toModel = some .lt := by
  show decide ((x.toModel.unpack.compare y.toModel.unpack == some .lt) = true) = true ↔ _
  rw [decide_eq_true_eq, beq_iff_eq]
  rfl

theorem beq_iff_compare (x y : Float) : x == y ↔ x.toModel.compare y.toModel = some .eq := by
  show (x.toModel.unpack.compare y.toModel.unpack == some .eq) = true ↔ _
  rw [beq_iff_eq]
  rfl

theorem floatOrder?_eq_compare (x y : Float) : floatOrder? x y = x.toModel.compare y.toModel := by
  have hswap : y.toModel.compare x.toModel = (x.toModel.compare y.toModel).map Ordering.swap :=
    unpackedCompare_swap _ _
  simp only [floatOrder?, lt_iff_compare, beq_iff_compare, hswap]
  cases x.toModel.compare y.toModel with
  | none => rfl
  | some order => cases order <;> rfl

theorem floatOrder?_swap (x y : Float) : floatOrder? y x = (floatOrder? x y).map Ordering.swap := by
  rw [floatOrder?_eq_compare, floatOrder?_eq_compare]
  exact unpackedCompare_swap _ _

theorem floatOrder?_eq_eq_iff (x y : Float) : floatOrder? x y = some .eq ↔ x == y := by
  rw [floatOrder?_eq_compare, beq_iff_compare]

theorem float_beq_comm (x y : Float) : (x == y) = (y == x) := by
  rw [Bool.eq_iff_iff, ← floatOrder?_eq_eq_iff, ← floatOrder?_eq_eq_iff, floatOrder?_swap y x]
  simp [Option.map_eq_some_iff]

namespace Value

/-! ## Values of different kinds -/

/-- Which of two numbers comes first; what is no number has no place. -/
def numbersOrder? : Option Float → Option Float → Option Ordering
  | some x, some y => floatOrder? x y
  | _, _ => none

/-- Whether two numbers are equal; what is no number equals nothing. -/
def numbersEq : Option Float → Option Float → Bool
  | some x, some y => x == y
  | _, _ => false

theorem numbersOrder?_swap (x? y? : Option Float) :
    numbersOrder? y? x? = (numbersOrder? x? y?).map Ordering.swap := by
  cases x? <;> cases y? <;> first | rfl | exact floatOrder?_swap _ _

theorem numbersEq_comm (x? y? : Option Float) : numbersEq x? y? = numbersEq y? x? := by
  cases x? <;> cases y? <;> first | rfl | exact float_beq_comm _ _

theorem numbersOrder?_eq_eq_iff (x? y? : Option Float) :
    numbersOrder? x? y? = some .eq ↔ numbersEq x? y? := by
  cases x? <;> cases y? <;> first | exact floatOrder?_eq_eq_iff _ _ | exact iff_of_false nofun nofun

variable {a b : Value}

theorem looseEq_of_kind_ne (h : a.kind ≠ b.kind) :
    looseEq a b = numbersEq a.coerced? b.coerced? := by
  cases a <;> cases b <;> first | rfl | exact absurd rfl h

theorem looseCompare?_of_kind_ne (h : a.kind ≠ b.kind) :
    looseCompare? a b = numbersOrder? a.coerced? b.coerced? := by
  cases a <;> cases b <;> first | rfl | exact absurd rfl h

/-! ## Equality -/

mutual

theorem looseEq_comm (a b : Value) : looseEq a b = looseEq b a := by
  by_cases h : a.kind = b.kind
  case neg =>
    rw [looseEq_of_kind_ne h, looseEq_of_kind_ne (Ne.symm h)]
    exact numbersEq_comm _ _
  case pos =>
    cases a <;> cases b <;> cases h
    case array.array as bs => exact looseEqElements_comm as bs
    case object.object as bs => exact looseEqFields_comm as bs
    case float.float x y => exact float_beq_comm x y
    case null.null => rfl
    all_goals exact decide_eq_decide.2 eq_comm

theorem looseEqElements_comm : ∀ as bs : List Value, looseEqElements as bs = looseEqElements bs as
  | [], [] => rfl
  | a :: as, b :: bs => by
    show (looseEq a b && looseEqElements as bs) = (looseEq b a && looseEqElements bs as)
    rw [looseEq_comm a b, looseEqElements_comm as bs]
  | [], _ :: _ => rfl
  | _ :: _, [] => rfl

theorem looseEqFields_comm :
    ∀ as bs : List (String × Value), looseEqFields as bs = looseEqFields bs as
  | [], [] => rfl
  | (k, a) :: as, (l, b) :: bs => by
    have hkey : decide (k = l) = decide (l = k) := decide_eq_decide.2 eq_comm
    show (decide (k = l) && looseEq a b && looseEqFields as bs) =
      (decide (l = k) && looseEq b a && looseEqFields bs as)
    rw [hkey, looseEq_comm a b, looseEqFields_comm as bs]
  | [], _ :: _ => rfl
  | _ :: _, [] => rfl

end

/-! ## Order -/

/-- Whether a value can come before another one. -/
def isOrdered : Value → Bool
  | null => false
  | array _ => false
  | object _ => false
  | _ => true

theorem looseCompare?_swap (a b : Value) :
    looseCompare? b a = (looseCompare? a b).map Ordering.swap := by
  by_cases h : a.kind = b.kind
  case neg =>
    rw [looseCompare?_of_kind_ne h, looseCompare?_of_kind_ne (Ne.symm h)]
    exact numbersOrder?_swap _ _
  case pos =>
    cases a <;> cases b <;> cases h
    case integer.integer m n => exact congrArg some Std.OrientedOrd.eq_swap
    case text.text s t => exact congrArg some Std.OrientedOrd.eq_swap
    case float.float x y => exact floatOrder?_swap x y
    case bool.bool x y => exact floatOrder?_swap _ _
    all_goals rfl

theorem isOrdered_of_coerced? {x : Float} (h : a.coerced? = some x) : a.isOrdered := by
  cases a <;> first | rfl | exact nomatch h

theorem exists_of_numbersEq {x? y? : Option Float} (h : numbersEq x? y?) :
    ∃ x y, x? = some x ∧ y? = some y := by
  cases x? <;> cases y? <;> first | exact ⟨_, _, rfl, rfl⟩ | exact nomatch h

theorem looseCompare?_eq_eq_iff (a b : Value) :
    looseCompare? a b = some .eq ↔ looseEq a b ∧ a.isOrdered ∧ b.isOrdered := by
  by_cases h : a.kind = b.kind
  case neg =>
    rw [looseCompare?_of_kind_ne h, looseEq_of_kind_ne h, numbersOrder?_eq_eq_iff, iff_self_and]
    intro heq
    obtain ⟨x, y, ha, hb⟩ := exists_of_numbersEq heq
    exact ⟨isOrdered_of_coerced? ha, isOrdered_of_coerced? hb⟩
  case pos =>
    cases a <;> cases b <;> cases h
    case integer.integer m n =>
      show some (compare m.toInt n.toInt) = some .eq ↔ decide (m = n) = true ∧ _
      rw [Option.some_inj, Std.LawfulEqOrd.compare_eq_iff_eq, Int64.toInt_inj, decide_eq_true_eq]
      exact (and_iff_left ⟨rfl, rfl⟩).symm
    case text.text s t =>
      show some (compare s t) = some .eq ↔ decide (s = t) = true ∧ _
      rw [Option.some_inj, Std.LawfulEqOrd.compare_eq_iff_eq, decide_eq_true_eq]
      exact (and_iff_left ⟨rfl, rfl⟩).symm
    case float.float x y => exact (floatOrder?_eq_eq_iff x y).trans (and_iff_left ⟨rfl, rfl⟩).symm
    case bool.bool x y => cases x <;> cases y <;> decide
    all_goals exact iff_of_false nofun fun h => Bool.false_ne_true h.2.1

/-! ## Operators -/

/-- What the comparison `op` says about `a` and `b`, wherever it stands. -/
def Says (op : Operator) (a b : Value) (answer : Bool) : Prop :=
  ∀ p, comparison op a b p = .ok (bool answer)

theorem says_iff {op : Operator} {answer given : Bool} (h : Says op a b answer) :
    Says op a b given ↔ answer = given := by
  constructor
  · intro hgiven
    have heq := (h .start).symm.trans (hgiven .start)
    injection heq with heq
    injection heq
  · rintro rfl
    exact h

variable (a b)

theorem says_equal : Says .equal a b (looseEq a b) := fun _ => rfl

theorem says_notEqual : Says .notEqual a b (!looseEq a b) := fun _ => rfl

theorem says_less : Says .less a b (looseCompare? a b = some .lt) := fun _ => rfl

theorem says_greater : Says .greater a b (looseCompare? a b = some .gt) := fun _ => rfl

theorem says_lessEqual :
    Says .lessEqual a b (looseCompare? a b = some .lt || looseCompare? a b = some .eq) :=
  fun _ => rfl

theorem says_greaterEqual :
    Says .greaterEqual a b (looseCompare? a b = some .gt || looseCompare? a b = some .eq) :=
  fun _ => rfl

/--
Equality is symmetric, and the order of two values turns round when they change places. Ordered
values are equal exactly when neither comes first; null, arrays and objects are never ordered, equal
or not. So the operators say of two values what they say of them the other way round, and no value
is both less and greater than another.
-/
theorem looseEq_looseCompare?_coherent :
    looseEq a b = looseEq b a ∧
    looseCompare? b a = (looseCompare? a b).map Ordering.swap ∧
    (looseCompare? a b = some .eq ↔ looseEq a b ∧ a.isOrdered ∧ b.isOrdered) ∧
    (∀ answer, Says .less a b answer ↔ Says .greater b a answer) ∧
    (∀ answer, Says .lessEqual a b answer ↔ Says .greaterEqual b a answer) ∧
    (Says .lessEqual a b true ↔ Says .less a b true ∨ looseCompare? a b = some .eq) ∧
    (∀ answer, Says .notEqual a b answer ↔ Says .equal a b (!answer)) ∧
    ¬ (Says .less a b true ∧ Says .greater a b true) ∧
    (∃ answer, Says .less a b answer) ∧ (∃ answer, Says .lessEqual a b answer) ∧
    ∃ answer, Says .equal a b answer := by
  have hswap := looseCompare?_swap a b
  refine ⟨looseEq_comm a b, hswap, looseCompare?_eq_eq_iff a b, ?_, ?_, ?_, ?_, ?_,
    ⟨_, says_less a b⟩, ⟨_, says_lessEqual a b⟩, ⟨_, says_equal a b⟩⟩
  · intro answer
    rw [says_iff (says_less a b), says_iff (says_greater b a), hswap]
    cases looseCompare? a b with
    | none => rfl
    | some order => cases order <;> rfl
  · intro answer
    rw [says_iff (says_lessEqual a b), says_iff (says_greaterEqual b a), hswap]
    cases looseCompare? a b with
    | none => rfl
    | some order => cases order <;> rfl
  · rw [says_iff (says_lessEqual a b), says_iff (says_less a b), Bool.or_eq_true,
      decide_eq_true_eq, decide_eq_true_eq]
  · intro answer
    rw [says_iff (says_notEqual a b), says_iff (says_equal a b), Bool.not_eq_eq_eq_not]
  · rw [says_iff (says_less a b), says_iff (says_greater a b), decide_eq_true_eq,
      decide_eq_true_eq]
    rintro ⟨hless, hgreater⟩
    exact absurd (hless.symm.trans hgreater) (by decide)

end Value

end Arrow
