import Mathlib.Algebra.Field.Rat
import Mathlib.Data.Rat.Cast.Defs
import Arrow.Value.Operation

/-!
# Arithmetic on integers

The exact result of an operator on two integers is a rational number, and division by zero has none.
Where it is an integer in range, that integer is the result, and everywhere else the operator is
applied to the floating-point numbers nearest to the integers. So no result is wrapped, and the
operators never fail on integers (`Value.arithmetic_exact_or_promoted`).
-/

namespace Arrow

theorem Integer.ofInt?_eq_some_iff {k : Int} {n : Integer} : ofInt? k = some n ↔ n.toInt = k := by
  unfold ofInt?
  split_ifs with h
  · have hk : (Int64.ofInt k).toInt = k := Int64.toInt_ofInt_of_le h.1 (Int.lt_add_one_of_le h.2)
    rw [Option.some_inj, ← Int64.toInt_inj, hk]
    exact eq_comm
  · refine iff_of_false nofun ?_
    rintro rfl
    exact h ⟨n.le_toInt, n.toInt_le⟩

namespace Operator

/-- The operators that compute numbers from numbers. -/
def IsArithmetic : Operator → Prop
  | add | sub | mul | div => True
  | _ => False

/-- The result of an arithmetic operator on rational numbers; nothing is divided by zero. -/
def onRational? : Operator → ℚ → ℚ → Option ℚ
  | add, a, b => some (a + b)
  | sub, a, b => some (a - b)
  | mul, a, b => some (a * b)
  | div, a, b => if b = 0 then none else some (a / b)
  | _, _, _ => none

theorem onInt?_div_eq_some_iff {a b k : Int} :
    div.onInt? a b = some k ↔ div.onRational? a b = some (k : ℚ) := by
  simp only [onInt?, onRational?]
  by_cases hb : b = 0
  · rw [if_neg fun h => h.1 hb, if_pos (by rw [hb, Int.cast_zero])]
    exact iff_of_false nofun nofun
  · have hb' : (b : ℚ) ≠ 0 := Int.cast_ne_zero.2 hb
    rw [if_neg hb', Option.some_inj, div_eq_iff hb']
    norm_cast
    constructor
    · intro h
      split_ifs at h with hdivides
      cases h
      exact (Int.ediv_mul_cancel (Int.dvd_of_emod_eq_zero hdivides.2)).symm
    · rintro rfl
      rw [if_pos ⟨hb, Int.mul_emod_left k b⟩, Int.mul_ediv_cancel k hb]

/-- The integers give a result exactly where the rational numbers give that integer. -/
theorem onInt?_eq_some_iff (op : Operator) {a b k : Int} :
    op.onInt? a b = some k ↔ op.onRational? a b = some (k : ℚ) := by
  cases op with
  | div => exact onInt?_div_eq_some_iff
  | add | sub | mul =>
    simp only [onInt?, onRational?, Option.some_inj]
    norm_cast
  | _ => exact iff_of_false nofun nofun

theorem IsArithmetic.onFloat? {op : Operator} (h : op.IsArithmetic) (x y : Float) :
    ∃ z, op.onFloat? x y = some z := by
  cases op <;> first | exact ⟨_, rfl⟩ | exact h.elim

end Operator

namespace Value

variable {op : Operator}

theorem exactInteger?_eq_some_iff {a b n : Integer} :
    exactInteger? op (integer a) (integer b) = some n ↔
      op.onRational? a.toInt b.toInt = some (n.toInt : ℚ) := by
  unfold exactInteger?
  rw [← Operator.onInt?_eq_some_iff, Option.bind_eq_some_iff]
  constructor
  · rintro ⟨k, hk, hn⟩
    rw [hk, Integer.ofInt?_eq_some_iff.1 hn]
  · exact fun h => ⟨_, h, Integer.ofInt?_eq_some_iff.2 rfl⟩

theorem arithmetic_integers (a b : Integer) (p : Position) {z : Float}
    (hz : op.onFloat? a.toNearest b.toNearest = some z) :
    arithmetic op (integer a) (integer b) p =
      .ok (((exactInteger? op (integer a) (integer b)).map integer).getD (float z)) := by
  unfold arithmetic
  rw [if_neg (by rintro ⟨-, h | h⟩ <;> cases h)]
  simp only [number?, hz]
  cases exactInteger? op (integer a) (integer b) <;> rfl

/--
Arithmetic on integers always succeeds. It gives an integer exactly where the exact result is that
integer; otherwise it gives the result of the operator on the floating-point numbers nearest to the
operands.
-/
theorem arithmetic_exact_or_promoted (hop : op.IsArithmetic) (a b : Integer) (p : Position) :
    (∀ n, arithmetic op (integer a) (integer b) p = .ok (integer n) ↔
      op.onRational? a.toInt b.toInt = some (n.toInt : ℚ)) ∧
    (∀ z, arithmetic op (integer a) (integer b) p = .ok (float z) ↔
      op.onFloat? a.toNearest b.toNearest = some z ∧
      ∀ n : Integer, op.onRational? a.toInt b.toInt ≠ some (n.toInt : ℚ)) ∧
    ((∃ n, arithmetic op (integer a) (integer b) p = .ok (integer n)) ∨
      ∃ z, arithmetic op (integer a) (integer b) p = .ok (float z)) := by
  obtain ⟨x, hx⟩ := hop.onFloat? a.toNearest b.toNearest
  have hexact (n : Integer) : op.onRational? a.toInt b.toInt = some (n.toInt : ℚ) ↔
      exactInteger? op (integer a) (integer b) = some n := exactInteger?_eq_some_iff.symm
  simp only [arithmetic_integers a b p hx, ne_eq, hexact]
  cases exactInteger? op (integer a) (integer b) with
  | none => simp [hx]
  | some n => simp

theorem arithmetic_promoted_quotient :
    Operator.div.IsArithmetic ∧
    arithmetic .div (integer Int64.minValue) (integer (-1)) .start =
      .ok (float (Integer.toNearest Int64.minValue / Integer.toNearest (-1))) := by
  obtain ⟨-, hpromoted, -⟩ :=
    @arithmetic_exact_or_promoted .div trivial Int64.minValue (-1) .start
  refine ⟨trivial, (hpromoted _).2 ⟨rfl, fun n h => ?_⟩⟩
  rw [← Operator.onInt?_eq_some_iff] at h
  have hquotient :
      Operator.div.onInt? Int64.minValue.toInt (Int64.toInt (-1)) = some 9223372036854775808 := by
    decide
  have hn : n.toInt = 9223372036854775808 := (Option.some.inj (hquotient.symm.trans h)).symm
  exact absurd n.toInt_lt (by omega)

end Value

end Arrow
