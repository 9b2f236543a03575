import Arrow.Proofs.Value.Comparison
import Mathlib

/-!
# What floating-point numbers amount to

A floating-point number that is not NaN stands for an extended real number (`amount?`), and two such
numbers are compared as what they stand for (`floatOrder?_eq_map₂`). The model compares exponents
before mantissas; this is right because a mantissa has all its fifty-three digits unless the
exponent is the least one (`Amount.Settled`).
-/

namespace Arrow

open Float.Model (UnpackedFloat Format)
open Float.Model.UnpackedFloat

namespace Amount

/-! ## Mantissas and exponents -/

/-- The number with the given mantissa and exponent. -/
noncomputable def size (m : ℕ) (e : ℤ) : ℝ :=
  m * 2 ^ e

theorem size_pos {m : ℕ} {e : ℤ} (h : 0 < m) : 0 < size m e := by
  unfold size
  positivity

/-- A mantissa and an exponent as numbers are held: only the smallest ones lack leading digits. -/
structure Settled (m : ℕ) (e : ℤ) : Prop where
  short : m < 2 ^ 53
  least : -1074 ≤ e
  full : 2 ^ 52 ≤ m ∨ e = -1074

namespace Settled

variable {m n : ℕ} {e f : ℤ}

theorem size_lt (hm : Settled m e) (hn : Settled n f) (h : e < f) : size m e < size n f := by
  have hfull : 2 ^ 52 ≤ n := hn.full.resolve_right (hm.least.trans_lt h).ne'
  calc (m * 2 ^ e : ℝ) < 2 ^ 53 * 2 ^ e := by
        gcongr
        exact_mod_cast hm.short
    _ = 2 ^ 52 * 2 ^ (e + 1) := by
        rw [zpow_add_one₀ two_ne_zero]
        ring
    _ ≤ n * 2 ^ f := by
        gcongr
        · exact_mod_cast hfull
        · norm_num
        · omega

theorem compare_eq (hm : Settled m e) (hn : Settled n f) :
    (compare e f).then (compare m n) = compare (size m e) (size n f) := by
  rcases lt_trichotomy e f with h | rfl | h
  · rw [compare_lt_iff_lt.2 h, compare_lt_iff_lt.2 (hm.size_lt hn h)]
    rfl
  · have hmono : StrictMono fun k : ℕ => size k e := fun k l hkl => by
      dsimp only [size]
      gcongr
    rw [compare_eq_iff_eq.2 rfl, Ordering.eq_then, ← cmp_eq_compare, ← cmp_eq_compare]
    exact (hmono.cmp_map_eq m n).symm
  · rw [compare_gt_iff_gt.2 h, compare_gt_iff_gt.2 (hn.size_lt hm h)]
    rfl

end Settled

/-! ## Unpacked numbers -/

/-- The number that an unpacked one stands for; NaN stands for none. -/
noncomputable def unpacked? : UnpackedFloat → Option EReal
  | .notANumber => none
  | .infinity .negative => some ⊥
  | .infinity .positive => some ⊤
  | .zero _ => some 0
  | .finite .negative m e _ => some (-size m e : ℝ)
  | .finite .positive m e _ => some (size m e)

theorem unpacked?_neg (x : UnpackedFloat) : unpacked? x.neg = (unpacked? x).map (-·) := by
  rcases x with ⟨⟨⟩⟩ | _ | _ | ⟨⟨⟩, m, e, hm⟩
  case infinity.negative => exact congrArg some EReal.neg_bot.symm
  case infinity.positive => exact congrArg some EReal.neg_top.symm
  case notANumber => rfl
  case zero => exact congrArg some (neg_zero (G := EReal)).symm
  case finite.negative =>
    show some (size m e : EReal) = some (-((-size m e : ℝ) : EReal))
    rw [← EReal.coe_neg, neg_neg]
  case finite.positive => rfl

/-- What is finite has a mantissa and an exponent as numbers are held. -/
def IsSettled : UnpackedFloat → Prop
  | .finite _ m e _ => Settled m e
  | _ => True

theorem compare_coe (a b : ℝ) : compare (a : EReal) (b : EReal) = compare a b := by
  rw [← cmp_eq_compare, ← cmp_eq_compare]
  exact EReal.coe_strictMono.cmp_map_eq a b

theorem compare_neg (a b : ℝ) : compare (-a) (-b) = (compare a b).swap := by
  rw [← cmp_eq_compare, ← cmp_eq_compare, cmp_swap]
  simp only [cmp, cmpUsing, neg_lt_neg_iff]

theorem unpackedCompare_eq {x y : UnpackedFloat} (hx : IsSettled x) (hy : IsSettled y) :
    x.compare y = Option.map₂ compare (unpacked? x) (unpacked? y) := by
  rcases x with ⟨⟨⟩⟩ | _ | _ | ⟨⟨⟩, m, e, hm⟩ <;> rcases y with ⟨⟨⟩⟩ | _ | _ | ⟨⟨⟩, n, f, hn⟩ <;>
    simp only [UnpackedFloat.compare, unpacked?, Option.map₂_some_some, Option.map₂_none_left,
      Option.map₂_none_right, compare_coe, compare_neg]
  -- Between numbers of one sign the exponents decide; all else is settled by signs and shapes.
  case finite.negative.finite.negative => rw [Settled.compare_eq hx hy]
  case finite.positive.finite.positive => rw [Settled.compare_eq hx hy]
  case finite.negative.finite.positive =>
    have hless : -size m e < size n f := (neg_neg_of_pos (size_pos hm)).trans (size_pos hn)
    exact congrArg some (compare_lt_iff_lt.2 hless).symm
  case finite.positive.finite.negative =>
    have hless : -size n f < size m e := (neg_neg_of_pos (size_pos hn)).trans (size_pos hm)
    exact congrArg some (compare_gt_iff_gt.2 hless).symm
  case infinity.negative.infinity.negative | infinity.positive.infinity.positive | zero.zero =>
    exact congrArg some (compare_eq_iff_eq.2 rfl).symm
  case infinity.negative.infinity.positive | infinity.negative.zero
      | infinity.negative.finite.negative | infinity.negative.finite.positive
      | zero.infinity.positive | zero.finite.positive
      | finite.negative.infinity.positive | finite.negative.zero
      | finite.positive.infinity.positive =>
    refine congrArg some (compare_lt_iff_lt.2 ?_).symm
    simp [size_pos, -EReal.coe_neg, *]
  all_goals
    refine congrArg some (compare_gt_iff_gt.2 ?_).symm
    simp [size_pos, -EReal.coe_neg, *]

/-! ## Packed numbers -/

theorem toNat_one_append (v : BitVec 52) : (1#1 ++ v).toNat = 2 ^ 52 + v.toNat := by
  rw [BitVec.toNat_append, ← Nat.shiftLeft_add_eq_or_of_lt v.isLt]
  rfl

theorem isSettled_unpack (b : BitVec 64) : IsSettled (UnpackedFloat.unpack .binary64 b) := by
  have hmantissa : (@unpackMantissa .binary64 b).toNat < 2 ^ 52 := BitVec.isLt _
  unfold UnpackedFloat.unpack
  dsimp only
  split
  · split <;> trivial
  · split
    case isTrue h =>
      split
      case isTrue => trivial
      case isFalse =>
        have hleast : ((@unpackExponent .binary64 b).toNat : ℤ) - 1075 + 1 = -1074 := by
          rw [h]
          rfl
        exact ⟨by omega, hleast.ge, .inr hleast⟩
    case isFalse h =>
      have hpos : (@unpackExponent .binary64 b).toNat ≠ 0 := fun heq =>
        h (BitVec.eq_of_toNat_eq heq)
      have hleast : -1074 ≤ ((@unpackExponent .binary64 b).toNat : ℤ) - 1075 := by omega
      have hwhole := toNat_one_append (@unpackMantissa .binary64 b)
      exact ⟨by omega, hleast, .inl (by omega)⟩

end Amount

/-- The number that a floating-point number stands for; NaN stands for none. -/
noncomputable def amount? (x : Float) : Option EReal :=
  Amount.unpacked? x.toModel.unpack

theorem amount?_eq_none_iff (x : Float) : amount? x = none ↔ x.isNaN := by
  show Amount.unpacked? x.toModel.unpack = none ↔ x.toModel.unpack.isNaN
  rcases x.toModel.unpack with ⟨⟨⟩⟩ | _ | _ | ⟨⟨⟩, m, e, hm⟩ <;>
    simp [Amount.unpacked?, UnpackedFloat.isNaN]

theorem floatOrder?_eq_map₂ (x y : Float) :
    floatOrder? x y = Option.map₂ compare (amount? x) (amount? y) :=
  (floatOrder?_eq_compare x y).trans
    (Amount.unpackedCompare_eq (Amount.isSettled_unpack _) (Amount.isSettled_unpack _))

/-- Only NaN differs from itself. -/
theorem float_beq_self_iff (x : Float) : x == x ↔ x.isNaN = false := by
  rw [← floatOrder?_eq_eq_iff, floatOrder?_eq_map₂, ← Bool.not_eq_true, ← amount?_eq_none_iff]
  cases amount? x with
  | none => simp
  | some a => simp

end Arrow
