import Arrow.Proofs.Float.Nearest

/-!
# Comparing numbers

Two integers are compared exactly, and any other two numbers as floating-point numbers. So the order
of numbers is total, and coming first is transitive. Equality is not: an integer beside a
floating-point number is rounded, and from `2 ^ 53` on different integers are rounded to one number,
which equals both of them. That is the only exception (`Value.numbers_compared`).
-/

namespace Arrow

namespace Value

variable {a b c : Value} {m n : Integer} {x : Float}

/-- An integer, or a floating-point number other than NaN. -/
def IsNumber : Value → Prop
  | integer _ => True
  | float x => x.isNaN = false
  | _ => False

instance : DecidablePred IsNumber
  | integer _ => isTrue trivial
  | float x => inferInstanceAs (Decidable (x.isNaN = false))
  | text _ | bool _ | null | array _ | object _ => isFalse id

theorem isNumber_integer (n : Integer) : IsNumber (integer n) :=
  trivial

/-- The first value comes in front of the second one. -/
def Less (a b : Value) : Prop :=
  looseCompare? a b = some .lt

/-- The first value comes in front of the second one, or neither comes first. -/
def AtMost (a b : Value) : Prop :=
  Less a b ∨ looseCompare? a b = some .eq

instance : Decidable (Less a b) :=
  inferInstanceAs (Decidable (_ = _))

instance : Decidable (AtMost a b) :=
  inferInstanceAs (Decidable (_ ∨ _))

/-- Two different integers, and between them a number that both are rounded to. -/
def Blurred (a b c : Value) : Prop :=
  ∃ m n x, a = integer m ∧ b = float x ∧ c = integer n ∧ m ≠ n ∧
    Integer.toNearest m == x ∧ Integer.toNearest n == x

/-! ## What numbers amount to -/

/-- What a number amounts to when it is compared as a floating-point number. -/
noncomputable def amount (value : Value) : EReal :=
  (value.number?.bind amount?).getD 0

theorem amount_integer (n : Integer) : amount (integer n) = (nearest n.toInt : ℝ) := by
  show (amount? n.toNearest).getD 0 = _
  rw [amount?_toNearest]
  rfl

theorem amount?_of_number? (h : a.IsNumber) (hx : a.number? = some x) :
    amount? x = some a.amount := by
  unfold amount
  rw [hx]
  cases a with
  | integer n =>
    cases hx
    rw [Option.bind_some, amount?_toNearest]
    rfl
  | float =>
    cases hx
    have hsome : amount? x ≠ none := fun heq => by
      rw [amount?_eq_none_iff, h] at heq
      exact Bool.false_ne_true heq
    obtain ⟨v, hv⟩ := Option.ne_none_iff_exists'.1 hsome
    rw [Option.bind_some, hv]
    rfl
  | _ => exact h.elim

/-- Rounding keeps the order of integers, though it may make different ones equal. -/
theorem amount_le_amount_integer (h : m.toInt ≤ n.toInt) :
    amount (integer m) ≤ amount (integer n) := by
  rw [amount_integer, amount_integer]
  exact_mod_cast nearest_mono h

/-! ## The order of numbers -/

/-- Two integers in their own order, and other numbers in the order of what they amount to. -/
noncomputable def numericOrder : Value → Value → Ordering
  | integer m, integer n => compare m.toInt n.toInt
  | a, b => compare a.amount b.amount

/-- The two values are compared exactly. -/
def AreIntegers (a b : Value) : Prop :=
  ∃ m n, a = integer m ∧ b = integer n

theorem not_areIntegers_float : ¬ AreIntegers a (float x) := by
  rintro ⟨m, n, -, h⟩
  cases h

theorem numericOrder_of_not_areIntegers (h : ¬ AreIntegers a b) :
    numericOrder a b = compare a.amount b.amount := by
  cases a <;> cases b <;> first | rfl | exact absurd ⟨_, _, rfl, rfl⟩ h

theorem looseCompare?_eq_numericOrder (ha : a.IsNumber) (hb : b.IsNumber) :
    looseCompare? a b = some (numericOrder a b) := by
  have hfloats {x y : Float} (hx : a.number? = some x) (hy : b.number? = some y) :
      floatOrder? x y = some (compare a.amount b.amount) := by
    rw [floatOrder?_eq_map₂, amount?_of_number? ha hx, amount?_of_number? hb hy,
      Option.map₂_some_some]
  cases a <;> cases b <;> first | exact ha.elim | exact hb.elim | skip
  case integer.integer => rfl
  all_goals exact hfloats rfl rfl

theorem IsNumber.isOrdered (h : a.IsNumber) : a.isOrdered := by
  cases a <;> first | rfl | exact h.elim

theorem looseEq_iff_numericOrder (ha : a.IsNumber) (hb : b.IsNumber) :
    looseEq a b ↔ numericOrder a b = .eq := by
  have hordered : looseEq a b ∧ a.isOrdered ∧ b.isOrdered ↔ looseEq a b :=
    and_iff_left ⟨ha.isOrdered, hb.isOrdered⟩
  rw [← hordered, ← looseCompare?_eq_eq_iff, looseCompare?_eq_numericOrder ha hb, Option.some_inj]

theorem less_iff_numericOrder (ha : a.IsNumber) (hb : b.IsNumber) :
    Less a b ↔ numericOrder a b = .lt := by
  unfold Less
  rw [looseCompare?_eq_numericOrder ha hb, Option.some_inj]

theorem atMost_iff (ha : a.IsNumber) (hb : b.IsNumber) : AtMost a b ↔ Less a b ∨ looseEq a b := by
  unfold AtMost
  rw [looseEq_iff_numericOrder ha hb, looseCompare?_eq_numericOrder ha hb, Option.some_inj]

/-! ## Two numbers -/

theorem looseEq_integer : looseEq (integer m) (integer n) ↔ m = n :=
  decide_eq_true_iff

theorem less_integer : Less (integer m) (integer n) ↔ m.toInt < n.toInt := by
  rw [less_iff_numericOrder (isNumber_integer m) (isNumber_integer n)]
  exact compare_lt_iff_lt

theorem atMost_integer : AtMost (integer m) (integer n) ↔ m.toInt ≤ n.toInt := by
  rw [atMost_iff (isNumber_integer m) (isNumber_integer n), less_integer, looseEq_integer,
    ← Int64.toInt_inj, le_iff_lt_or_eq]

section Mixed

variable (ha : a.IsNumber) (hb : b.IsNumber) (h : ¬ AreIntegers a b)

include ha hb h

theorem looseEq_iff_amount : looseEq a b ↔ a.amount = b.amount := by
  rw [looseEq_iff_numericOrder ha hb, numericOrder_of_not_areIntegers h, compare_eq_iff_eq]

theorem less_iff_amount : Less a b ↔ a.amount < b.amount := by
  rw [less_iff_numericOrder ha hb, numericOrder_of_not_areIntegers h, compare_lt_iff_lt]

theorem atMost_iff_amount : AtMost a b ↔ a.amount ≤ b.amount := by
  rw [atMost_iff ha hb, less_iff_amount ha hb h, looseEq_iff_amount ha hb h, le_iff_lt_or_eq]

end Mixed

theorem amount_le_of_atMost (ha : a.IsNumber) (hb : b.IsNumber) (h : AtMost a b) :
    a.amount ≤ b.amount := by
  by_cases hints : AreIntegers a b
  · obtain ⟨m, n, rfl, rfl⟩ := hints
    exact amount_le_amount_integer (atMost_integer.1 h)
  · exact (atMost_iff_amount ha hb hints).1 h

theorem amount_eq_of_looseEq (ha : a.IsNumber) (hb : b.IsNumber) (h : looseEq a b) :
    a.amount = b.amount := by
  have hab : AtMost a b := (atMost_iff ha hb).2 (.inr h)
  have hba : AtMost b a := (atMost_iff hb ha).2 (.inr (looseEq_comm a b ▸ h))
  exact le_antisymm (amount_le_of_atMost ha hb hab) (amount_le_of_atMost hb ha hba)

theorem looseEq_self (h : a.IsNumber) : looseEq a a := by
  by_cases hints : AreIntegers a a
  · obtain ⟨m, -, rfl, -⟩ := hints
    exact looseEq_integer.2 rfl
  · exact (looseEq_iff_amount h h hints).2 rfl

/-! ## Three numbers -/

theorem not_blurred_of_not_areIntegers (h : ¬ AreIntegers a c) : ¬ Blurred a b c := by
  rintro ⟨m, n, x, rfl, -, rfl, -⟩
  exact h ⟨m, n, rfl, rfl⟩

/-- Two integers in the wrong order with a number between them are rounded to that number. -/
theorem blurred_of_lt (h : n.toInt < m.toInt) (hm : AtMost (integer m) (float x))
    (hn : AtMost (float x) (integer n)) (hx : IsNumber (float x)) :
    Blurred (integer m) (float x) (integer n) := by
  have hlow := amount_le_of_atMost (isNumber_integer m) hx hm
  have hhigh := amount_le_of_atMost hx (isNumber_integer n) hn
  have hle : amount (integer n) ≤ amount (integer m) := amount_le_amount_integer h.le
  have hmx : looseEq (integer m) (float x) :=
    (looseEq_iff_amount (isNumber_integer m) hx not_areIntegers_float).2
      (le_antisymm hlow (hhigh.trans hle))
  have hnx : looseEq (integer n) (float x) :=
    (looseEq_iff_amount (isNumber_integer n) hx not_areIntegers_float).2
      (le_antisymm (hle.trans hlow) hhigh)
  exact ⟨m, n, x, rfl, rfl, rfl, fun heq => h.ne (congrArg _ heq.symm), hmx, hnx⟩

section Triples

variable (ha : a.IsNumber) (hb : b.IsNumber) (hc : c.IsNumber)

include ha hb hc

theorem atMost_trans_iff (hab : AtMost a b) (hbc : AtMost b c) :
    AtMost a c ↔ ¬ (Blurred a b c ∧ Less c a) := by
  by_cases hints : AreIntegers a c
  case neg =>
    have hle := (amount_le_of_atMost ha hb hab).trans (amount_le_of_atMost hb hc hbc)
    exact iff_of_true ((atMost_iff_amount ha hc hints).2 hle)
      fun h => not_blurred_of_not_areIntegers hints h.1
  case pos =>
    obtain ⟨m, n, rfl, rfl⟩ := hints
    rw [atMost_integer, less_integer, ← not_lt, not_iff_not, iff_and_self]
    intro hlt
    cases b <;> first | exact hb.elim | skip
    case integer k => exact absurd ((atMost_integer.1 hab).trans (atMost_integer.1 hbc)) hlt.not_ge
    case float x => exact blurred_of_lt hlt hab hbc hb

theorem looseEq_trans_iff (hab : looseEq a b) (hbc : looseEq b c) :
    looseEq a c ↔ ¬ Blurred a b c := by
  by_cases hints : AreIntegers a c
  case neg =>
    have heq := (amount_eq_of_looseEq ha hb hab).trans (amount_eq_of_looseEq hb hc hbc)
    exact iff_of_true ((looseEq_iff_amount ha hc hints).2 heq)
      (not_blurred_of_not_areIntegers hints)
  case pos =>
    obtain ⟨m, n, rfl, rfl⟩ := hints
    rw [looseEq_integer]
    constructor
    · rintro rfl ⟨m, n, x, hm, -, hn, hne, -⟩
      cases hm
      exact hne (integer.inj hn)
    · intro hblurred
      by_contra hne
      cases b <;> first | exact hb.elim | skip
      case integer k => exact hne ((looseEq_integer.1 hab).trans (looseEq_integer.1 hbc))
      case float x =>
        exact hblurred ⟨m, n, x, rfl, rfl, rfl, hne, hab, (looseEq_comm _ _).trans hbc⟩

theorem less_trans (hab : Less a b) (hbc : Less b c) : Less a c := by
  have hle := amount_le_of_atMost ha hb (.inl hab)
  have hle' := amount_le_of_atMost hb hc (.inl hbc)
  by_cases hints : AreIntegers a b ∧ AreIntegers b c
  case pos =>
    obtain ⟨⟨m, k, rfl, rfl⟩, -, n, -, rfl⟩ := hints
    exact less_integer.2 ((less_integer.1 hab).trans (less_integer.1 hbc))
  case neg =>
    have hlt : a.amount < c.amount := by
      rcases not_and_or.1 hints with hints | hints
      · exact ((less_iff_amount ha hb hints).1 hab).trans_le hle'
      · exact hle.trans_lt ((less_iff_amount hb hc hints).1 hbc)
    by_cases hac : AreIntegers a c
    · obtain ⟨m, n, rfl, rfl⟩ := hac
      exact less_integer.2 (lt_of_not_ge fun hge => hlt.not_ge (amount_le_amount_integer hge))
    · exact (less_iff_amount ha hc hac).2 hlt

end Triples

/-- Below `2 ^ 53` no integer is rounded to the same number as another one. -/
theorem Blurred.large (hb : b.IsNumber) (h : Blurred a b c) :
    ∀ k, integer k = a ∨ integer k = c → 2 ^ 53 ≤ k.toInt.natAbs := by
  obtain ⟨m, n, x, rfl, rfl, rfl, hne, hm, hn⟩ := h
  have hamount : amount (integer m) = amount (integer n) :=
    (amount_eq_of_looseEq (isNumber_integer m) hb hm).trans
      (amount_eq_of_looseEq (isNumber_integer n) hb hn).symm
  have hnearest : nearest m.toInt = nearest n.toInt := by
    rw [amount_integer, amount_integer] at hamount
    exact_mod_cast hamount
  have hne' : m.toInt ≠ n.toInt := fun heq => hne (Int64.toInt_inj.1 heq)
  rintro k (hk | hk) <;> cases hk <;> by_contra hlt
  · exact hne' (eq_of_nearest_eq (by omega) hnearest)
  · exact hne' (eq_of_nearest_eq (by omega) hnearest.symm).symm

/--
Numbers are compared by `numericOrder`, and are equal exactly when neither of them comes first.
Equality is reflexive and symmetric, the order turns round when two numbers change places, and
coming first is transitive. Numbers that equal a common one are equal, and being at most is
transitive, except where two different integers are rounded to the floating-point number between
them; such integers have a magnitude of at least `2 ^ 53`.
-/
theorem numbers_compared (ha : a.IsNumber) (hb : b.IsNumber) (hc : c.IsNumber) :
    looseCompare? a b = some (numericOrder a b) ∧ (looseEq a b ↔ numericOrder a b = .eq) ∧
    looseCompare? b a = some (numericOrder a b).swap ∧
    looseEq a a ∧ looseEq a b = looseEq b a ∧
    (Less a b → Less b c → Less a c) ∧
    (looseEq a b → looseEq b c → (looseEq a c ↔ ¬ Blurred a b c)) ∧
    (AtMost a b → AtMost b c → (AtMost a c ↔ ¬ (Blurred a b c ∧ Less c a))) ∧
    (Blurred a b c → ∀ k, integer k = a ∨ integer k = c → 2 ^ 53 ≤ k.toInt.natAbs) := by
  have horder := looseCompare?_eq_numericOrder ha hb
  have hswap : looseCompare? b a = some (numericOrder a b).swap := by
    rw [looseCompare?_swap a b, horder, Option.map_some]
  exact ⟨horder, looseEq_iff_numericOrder ha hb, hswap, looseEq_self ha, looseEq_comm a b,
    less_trans ha hb hc, looseEq_trans_iff ha hb hc, atMost_trans_iff ha hb hc, Blurred.large hb⟩

theorem numbers_compared_at_limit :
    IsNumber (integer 9007199254740993) ∧ IsNumber (float 9007199254740992.0) ∧
    IsNumber (integer 9007199254740992) ∧
    Blurred (integer 9007199254740993) (float 9007199254740992.0) (integer 9007199254740992) := by
  have hx : IsNumber (float 9007199254740992.0) := by decide
  obtain ⟨-, -, -, -, -, -, htrans, -⟩ := numbers_compared (isNumber_integer 9007199254740993) hx
    (isNumber_integer 9007199254740992)
  refine ⟨isNumber_integer _, hx, isNumber_integer _, ?_⟩
  by_contra h
  exact absurd ((htrans (by decide) (by decide)).2 h) (by decide)

/-- Neither equality nor being at most is transitive on all numbers. -/
theorem numbers_not_transitive :
    (¬ ∀ a b c : Value, a.IsNumber → b.IsNumber → c.IsNumber →
      looseEq a b → looseEq b c → looseEq a c) ∧
    ¬ ∀ a b c : Value, a.IsNumber → b.IsNumber → c.IsNumber →
      AtMost a b → AtMost b c → AtMost a c := by
  constructor
  · intro h
    have heq := h (integer 9007199254740993) (float 9007199254740992.0) (integer 9007199254740992)
      (by decide) (by decide) (by decide) (by decide) (by decide)
    exact absurd heq (by decide)
  · intro h
    have hle := h (integer 9007199254740993) (float 9007199254740992.0) (integer 9007199254740992)
      (by decide) (by decide) (by decide) (by decide) (by decide)
    exact absurd hle (by decide)

end Value

end Arrow
