import Arrow.Proofs.Float.Amount

/-!
# The floating-point number nearest to an integer

An integer is converted to the nearest floating-point number, a tie going to the even mantissa.
`nearest` computes the number it becomes without floating point, and `amount?_toNearest` says that
the conversion gives it. Rounding keeps the order of integers, and changes none up to `2 ^ 53`.
-/

namespace Arrow

open Float.Model (UnpackedFloat Format totalExponent)
open Float.Model.UnpackedFloat

/-! ## Rounding quotients -/

/-- The whole number nearest to `m / d`; a half goes to its even neighbour. -/
def divRound (m d : ℕ) : ℕ :=
  if 2 * (m % d) < d then m / d
  else if d < 2 * (m % d) then m / d + 1
  else m / d + m / d % 2

namespace Rounding

theorem div_le_divRound (m d : ℕ) : m / d ≤ divRound m d := by
  unfold divRound
  split_ifs <;> omega

theorem divRound_le (m d : ℕ) : divRound m d ≤ m / d + 1 := by
  unfold divRound
  split_ifs <;> omega

theorem divRound_one (m : ℕ) : divRound m 1 = m := by
  unfold divRound
  rw [Nat.mod_one, if_pos (by decide), Nat.div_one]

theorem divRound_mul_right (m d : ℕ) {c : ℕ} (hc : 0 < c) :
    divRound (m * c) (d * c) = divRound m d := by
  have hmod : 2 * (m * c % (d * c)) = 2 * (m % d) * c := by
    rw [Nat.mul_mod_mul_right, mul_assoc]
  unfold divRound
  simp only [hmod, Nat.mul_div_mul_right _ _ hc, Nat.mul_lt_mul_right hc]

theorem divRound_mul_self (m : ℕ) {c : ℕ} (hc : 0 < c) : divRound (m * c) c = m := by
  have h := divRound_mul_right m 1 hc
  rwa [one_mul, divRound_one] at h

theorem divRound_mono {m n : ℕ} (h : m ≤ n) (d : ℕ) : divRound m d ≤ divRound n d := by
  rcases (Nat.div_le_div_right (c := d) h).eq_or_lt with hquotient | hquotient
  · have hmod : m % d ≤ n % d := by
      have hm := Nat.div_add_mod m d
      have hn := Nat.div_add_mod n d
      rw [hquotient] at hm
      omega
    unfold divRound
    rw [hquotient]
    split_ifs <;> omega
  · exact (divRound_le m d).trans (hquotient.trans_le (div_le_divRound n d))

/-! ## Rounding to fifty-three binary digits -/

/-- The number with at most fifty-three binary digits that is nearest to `n`. -/
def nearestNat (n : ℕ) : ℕ :=
  divRound n (2 ^ (n.log2 - 52)) * 2 ^ (n.log2 - 52)

theorem nearestNat_of_lt {n : ℕ} (h : n < 2 ^ 53) : nearestNat n = n := by
  have hlog : n.log2 - 52 = 0 := by
    rcases eq_or_ne n 0 with rfl | hn
    · rfl
    · have := (Nat.log2_lt hn).2 h
      omega
  unfold nearestNat
  rw [hlog, pow_zero, divRound_one, mul_one]

theorem log2_mul_two_pow {n : ℕ} (h : n ≠ 0) (k : ℕ) : (n * 2 ^ k).log2 = n.log2 + k := by
  have hlow := Nat.log2_self_le h
  have hhigh := @Nat.lt_log2_self n
  rw [Nat.log2_eq_iff (by positivity), pow_add, add_right_comm, pow_add _ _ k]
  exact ⟨Nat.mul_le_mul_right _ hlow, Nat.mul_lt_mul_of_pos_right hhigh (by positivity)⟩

theorem nearestNat_mul_two_pow (n k : ℕ) : nearestNat (n * 2 ^ k) = nearestNat n * 2 ^ k := by
  rcases eq_or_ne n 0 with rfl | hn
  · rw [zero_mul, nearestNat_of_lt (by decide), zero_mul]
  rcases le_total n.log2 52 with hshort | hlong
  · -- The digits that are dropped are among the zeros that have been put behind `n`.
    have hsplit : n * 2 ^ k = n * 2 ^ (k - (n.log2 + k - 52)) * 2 ^ (n.log2 + k - 52) := by
      rw [mul_assoc, ← pow_add, Nat.sub_add_cancel (by omega)]
    rw [nearestNat_of_lt ((Nat.log2_lt hn).1 (by omega))]
    unfold nearestNat
    rw [log2_mul_two_pow hn, hsplit, divRound_mul_self _ (by positivity)]
  · unfold nearestNat
    rw [log2_mul_two_pow hn, Nat.sub_add_comm hlong, pow_add,
      divRound_mul_right _ _ (by positivity), mul_assoc]

/-- Fifty-three digits are kept, and one more may come by a carry. -/
theorem divRound_bounds {m : ℕ} (hm : 2 ^ 52 ≤ m) :
    2 ^ 52 ≤ divRound m (2 ^ (m.log2 - 52)) ∧ divRound m (2 ^ (m.log2 - 52)) ≤ 2 ^ 53 := by
  have hlog : 52 ≤ m.log2 := (Nat.le_log2 (by omega)).2 hm
  constructor
  · refine le_trans ?_ (div_le_divRound _ _)
    rw [Nat.le_div_iff_mul_le (by positivity), ← pow_add, Nat.add_sub_cancel' hlog]
    exact Nat.log2_self_le (by omega)
  · refine (divRound_le _ _).trans (Nat.succ_le_of_lt ?_)
    rw [Nat.div_lt_iff_lt_mul (by positivity), ← pow_add,
      show 53 + (m.log2 - 52) = m.log2 + 1 by omega]
    exact Nat.lt_log2_self

theorem nearestNat_bounds {n : ℕ} (h : n ≠ 0) :
    2 ^ n.log2 ≤ nearestNat n ∧ nearestNat n ≤ 2 ^ (n.log2 + 1) := by
  rcases lt_or_ge n (2 ^ 52) with hshort | hlong
  · rw [nearestNat_of_lt (by omega)]
    exact ⟨Nat.log2_self_le h, Nat.lt_log2_self.le⟩
  · have hlog : 52 ≤ n.log2 := (Nat.le_log2 h).2 hlong
    obtain ⟨hlow, hhigh⟩ := divRound_bounds hlong
    constructor
    · calc 2 ^ n.log2 = 2 ^ 52 * 2 ^ (n.log2 - 52) := by rw [← pow_add, Nat.add_sub_cancel' hlog]
        _ ≤ nearestNat n := Nat.mul_le_mul_right _ hlow
    · calc nearestNat n ≤ 2 ^ 53 * 2 ^ (n.log2 - 52) := Nat.mul_le_mul_right _ hhigh
        _ = 2 ^ (n.log2 + 1) := by rw [← pow_add, show 53 + (n.log2 - 52) = n.log2 + 1 by omega]

theorem nearestNat_mono {m n : ℕ} (h : m ≤ n) : nearestNat m ≤ nearestNat n := by
  rcases eq_or_ne m 0 with rfl | hm
  · rw [nearestNat_of_lt (by decide)]
    exact Nat.zero_le _
  have hn : n ≠ 0 := by omega
  have hlog : m.log2 ≤ n.log2 := (Nat.le_log2 hn).2 ((Nat.log2_self_le hm).trans h)
  rcases hlog.eq_or_lt with heq | hlt
  · unfold nearestNat
    rw [heq]
    exact Nat.mul_le_mul_right _ (divRound_mono h _)
  · -- Between numbers of different lengths there is a power of two.
    calc nearestNat m ≤ 2 ^ (m.log2 + 1) := (nearestNat_bounds hm).2
      _ ≤ 2 ^ n.log2 := Nat.pow_le_pow_right (by decide) hlt
      _ ≤ nearestNat n := (nearestNat_bounds hn).1

/-! ## Rounding in the model -/

theorem roundToNearestEven_eq {m d : ℕ} (hd : 0 < d) :
    (accuracyOfFraction (m % d) d).roundToNearestEven (m / d) = divRound m d := by
  unfold accuracyOfFraction divRound
  split
  case isTrue h =>
    rw [h, if_pos hd]
    rfl
  case isFalse =>
    rcases lt_trichotomy (2 * (m % d)) d with h | h | h
    · rw [compare_lt_iff_lt.2 h, if_pos h]
      rfl
    · rw [compare_eq_iff_eq.2 h, if_neg h.not_lt, if_neg h.not_gt]
      rfl
    · rw [compare_gt_iff_gt.2 h, if_neg h.not_gt, if_pos h]
      rfl

theorem accuracy_shiftRightOne {em : ExtendedMantissa} {r d : ℕ} (hr : r < d)
    (h : em.accuracy = accuracyOfFraction r d) :
    em.shiftRightOne.accuracy = accuracyOfFraction (em.mantissa % 2 * d + r) (2 * d) := by
  obtain ⟨q, roundBit, stickyBit⟩ := em
  have hsticky : (roundBit || stickyBit) = decide (r ≠ 0) := by
    revert h
    by_cases hzero : r = 0 <;> cases roundBit <;> cases stickyBit <;>
      simp [ExtendedMantissa.accuracy, accuracyOfFraction, hzero]
  unfold ExtendedMantissa.shiftRightOne accuracyOfFraction
  dsimp only
  rw [hsticky]
  rcases Nat.mod_two_eq_zero_or_one q with hq | hq <;> by_cases hzero : r = 0
  · simp [hq, hzero, ExtendedMantissa.accuracy]
  · have hless : compare (2 * r) (2 * d) = .lt := compare_lt_iff_lt.2 (by omega)
    simp [hq, hzero, ExtendedMantissa.accuracy, hless]
  · simp [hq, hzero, ExtendedMantissa.accuracy]
    omega
  · have hmore : compare (2 * (d + r)) (2 * d) = .gt := compare_gt_iff_gt.2 (by omega)
    simp [hq, hzero, ExtendedMantissa.accuracy, hmore]

theorem shifted (m k : ℕ) :
    let em := Nat.repeat ExtendedMantissa.shiftRightOne k (.ofMantissaAndAccuracy m .exact)
    em.mantissa = m / 2 ^ k ∧ em.accuracy = accuracyOfFraction (m % 2 ^ k) (2 ^ k) := by
  induction k with
  | zero =>
    refine ⟨(Nat.div_one m).symm, ?_⟩
    rw [pow_zero, Nat.mod_one]
    rfl
  | succ k ih =>
    obtain ⟨hmantissa, haccuracy⟩ := ih
    constructor
    · show _ / 2 = _
      rw [hmantissa, Nat.div_div_eq_div_mul, pow_succ]
    · refine (accuracy_shiftRightOne (Nat.mod_lt _ (by positivity)) haccuracy).trans ?_
      rw [hmantissa, ← pow_succ', pow_succ 2, Nat.mod_mul]
      congr 1
      ring

theorem roundedMantissa_shifted (m k : ℕ) :
    (Nat.repeat ExtendedMantissa.shiftRightOne k
      (.ofMantissaAndAccuracy m .exact)).roundedMantissa = divRound m (2 ^ k) := by
  obtain ⟨hmantissa, haccuracy⟩ := shifted m k
  unfold ExtendedMantissa.roundedMantissa
  rw [hmantissa, haccuracy, roundToNearestEven_eq (by positivity)]

theorem targetExponent_eq {m : ℕ} {e : ℤ} (hm : 2 ^ 52 ≤ m) (he : -1074 ≤ e) :
    Format.binary64.targetExponent (totalExponent m e) = e + (m.log2 - 52 : ℕ) := by
  have hlog : 52 ≤ m.log2 := (Nat.le_log2 (by omega)).2 hm
  show max ((m.log2 : ℤ) + 1 + e - 53) (-1074) = _
  omega

/-- Shifting leaves the fifty-three leading digits. -/
theorem shiftToTargetExponent_eq {m : ℕ} {e : ℤ} (hm : 2 ^ 52 ≤ m) (he : -1074 ≤ e) :
    ∃ em, shiftToTargetExponent .binary64 m e .exact = (em, e + (m.log2 - 52 : ℕ)) ∧
      em.mantissa = m / 2 ^ (m.log2 - 52) ∧
      em.roundedMantissa = divRound m (2 ^ (m.log2 - 52)) := by
  have hshift : (Format.binary64.targetExponent (totalExponent m e) - e).toNat = m.log2 - 52 := by
    rw [targetExponent_eq hm he]
    omega
  refine ⟨_, ?_, (shifted m _).1, roundedMantissa_shifted m _⟩
  unfold shiftToTargetExponent shiftToExponent
  simp only [hshift]
  rfl

/-- A carry leaves a zero in the last place, which the second shift drops. -/
theorem carry {q : ℕ} (hlow : 2 ^ 52 ≤ q) (hhigh : q ≤ 2 ^ 53) :
    q.log2 - 52 ≤ 1 ∧ 2 ^ 52 ≤ q / 2 ^ (q.log2 - 52) ∧ q / 2 ^ (q.log2 - 52) < 2 ^ 53 ∧
      q / 2 ^ (q.log2 - 52) * 2 ^ (q.log2 - 52) = q := by
  rcases hhigh.lt_or_eq with hlt | rfl
  · have hlog : q.log2 = 52 := (Nat.log2_eq_iff (by omega)).2 ⟨hlow, hlt⟩
    rw [hlog]
    omega
  · rw [Nat.log2_two_pow]
    decide

/-- A finite number with fifty-three digits that stands for `v`, or for `-v`. -/
inductive Normal (s : Sign) (v : ℝ) : UnpackedFloat → Prop where
  | intro {m : ℕ} {e : ℤ} (h : 0 < m) (full : 2 ^ 52 ≤ m) (short : m < 2 ^ 53) (least : -1074 ≤ e)
      (most : e ≤ 971) (size_eq : Amount.size m e = v) : Normal s v (.finite s m e h)

theorem normal_roundWithAccuracy (s : Sign) {m : ℕ} {e : ℤ} (hm : 2 ^ 52 ≤ m) (he : -1074 ≤ e)
    (hmost : m.log2 + e ≤ 1022) :
    Normal s (nearestNat m * 2 ^ e) (roundWithAccuracy .binary64 s m e .exact) := by
  have hlog : 52 ≤ m.log2 := (Nat.le_log2 (by omega)).2 hm
  obtain ⟨hlow, hhigh⟩ := divRound_bounds hm
  obtain ⟨em, hfirst, -, hrounded⟩ := shiftToTargetExponent_eq hm he
  obtain ⟨em', hsecond, hmantissa, -⟩ :=
    shiftToTargetExponent_eq (e := e + (m.log2 - 52 : ℕ)) hlow (by omega)
  obtain ⟨hone, hfull, hshort, hwhole⟩ := carry hlow hhigh
  rw [← hmantissa] at hfull hshort hwhole
  unfold nearestNat
  generalize divRound m (2 ^ (m.log2 - 52)) = q at *
  have hpos : em'.mantissa ≠ 0 := by omega
  unfold roundWithAccuracy
  simp only [hfirst, hrounded, hsecond]
  rw [dif_neg hpos]
  refine .intro _ hfull hshort (by omega) (by omega) ?_
  have hq : (em'.mantissa * 2 ^ (q.log2 - 52) : ℝ) = q := by exact_mod_cast hwhole
  unfold Amount.size
  rw [zpow_add₀ two_ne_zero, zpow_add₀ two_ne_zero, zpow_natCast, zpow_natCast]
  push_cast
  linear_combination 2 ^ e * 2 ^ (m.log2 - 52) * hq

/-- Zeros behind the digits do not matter. -/
theorem normal_roundWithAccuracy_scaled (s : Sign) {n k : ℕ} {e : ℤ} (hn : 2 ^ 52 ≤ n * 2 ^ k)
    (he : -1074 ≤ e) (hmost : n.log2 + k + e ≤ 1022) :
    Normal s (nearestNat n * 2 ^ (e + k)) (roundWithAccuracy .binary64 s (n * 2 ^ k) e .exact) := by
  have hlog : (n * 2 ^ k).log2 = n.log2 + k := by
    refine log2_mul_two_pow ?_ k
    rintro rfl
    omega
  have hscale : (nearestNat n * 2 ^ (e + k) : ℝ) = nearestNat (n * 2 ^ k) * 2 ^ e := by
    rw [nearestNat_mul_two_pow, zpow_add₀ two_ne_zero, zpow_natCast]
    push_cast
    ring
  rw [hscale]
  exact normal_roundWithAccuracy s hn he (by rw [hlog]; push_cast; exact hmost)

/-! ## Packing -/

theorem ofBitVec_unpackSign (s : Sign) (exponent : BitVec 11) (mantissa : BitVec 52) :
    Sign.ofBitVec (unpackSign (packComponents .binary64 s exponent mantissa)) = s := by
  change Sign.ofBitVec ((s.toBitVec ++ exponent ++ mantissa).extractLsb' 63 1) = s
  rw [BitVec.extractLsb'_append_eq_of_le (by omega), BitVec.extractLsb'_append_eq_of_le (by omega)]
  cases s <;> rfl

theorem Normal.unpack_pack {s : Sign} {v : ℝ} {x : UnpackedFloat} (h : Normal s v x) :
    (Float.Model.pack x).unpack = x := by
  cases h with
  | @intro m e hm full short least most =>
    have hlog : m.log2 = 52 := (Nat.log2_eq_iff hm.ne').2 ⟨full, short⟩
    have hbiased : (e + (Format.binary64.exponentBias : ℤ) + (52 : ℕ)).toNat = (e + 1075).toNat := by
      show (e + 1023 + 52).toNat = _
      omega
    have hexponent : (BitVec.ofNat 11 (e + 1075).toNat).toNat = (e + 1075).toNat :=
      Nat.mod_eq_of_lt (by omega)
    have hmantissa : (BitVec.ofNat 52 m).toNat = m - 2 ^ 52 := by
      rw [BitVec.toNat_ofNat]
      omega
    show UnpackedFloat.unpack .binary64 (UnpackedFloat.pack .binary64 (.finite s m e hm)) = _
    unfold UnpackedFloat.pack
    simp only [hlog, hbiased]
    rw [if_neg (by omega), if_pos (by rfl)]
    unfold UnpackedFloat.unpack
    simp only [unpackMantissa_packComponents, unpackExponent_packComponents, ofBitVec_unpackSign]
    rw [if_neg, if_neg]
    · congr
      · rw [Amount.toNat_one_append, hmantissa]
        omega
      · rw [hexponent]
        show ((e + 1075).toNat : ℤ) - 1075 = e
        omega
    -- The exponent is neither that of the smallest numbers nor that of the infinities.
    · intro h
      have : (e + 1075).toNat = 0 := hexponent.symm.trans (congrArg BitVec.toNat h)
      omega
    · intro h
      have : (e + 1075).toNat = 2047 := hexponent.symm.trans (congrArg BitVec.toNat h)
      omega

/-! ## Natural numbers -/

theorem ofScientific_zero {n : ℕ} (h : n ≠ 0) : ofScientific .binary64 n 0 =
    roundWithAccuracy .binary64 .positive (n * 2 ^ 53) (-53) .exact := by
  unfold ofScientific
  rw [dif_neg h, if_neg (by decide), if_neg (by simp), if_pos le_rfl]
  simp only [mul, Nat.shiftLeft_eq, Int.toNat_zero, pow_zero, mul_one, add_zero]
  rfl

theorem toModel_ofNat_of_ge {n : ℕ} (h : 2 ^ 53 ≤ n) :
    (Float.ofNat n).toModel = Float.Model.pack (ofScientific .binary64 n 0) := by
  show (Float.ofScientific n false 0).toModel = _
  unfold Float.ofScientific
  rw [dif_neg (by omega)]
  rfl

/-- A number that is short enough is converted directly, and then multiplied by one. -/
theorem toModel_ofNat_of_lt {n : ℕ} (h : n < 2 ^ 53) :
    (Float.ofNat n).toModel =
      Float.Model.pack (mul .binary64 (Float.Model.pack (ofNat .binary64 n)).unpack
        (.finite .positive (2 ^ 52) (-52) (by decide))) := by
  have hword : n.toUInt64.toNat = n := by
    rw [UInt64.toNat_ofNat']
    omega
  have hone : (Float.ofBits 0x3FF0000000000000).toModel.unpack =
      .finite .positive (2 ^ 52) (-52) (by decide) := rfl
  show (Float.ofScientific n false 0).toModel = _
  unfold Float.ofScientific
  rw [dif_pos ⟨h, by decide⟩]
  show Float.Model.pack (mul .binary64
    (Float.Model.pack (ofNat .binary64 n.toUInt64.toNat)).unpack
    (Float.ofBits 0x3FF0000000000000).toModel.unpack) = _
  rw [hword, hone]

theorem ofNat_eq {n : ℕ} (h : n ≠ 0) (hn : n < 2 ^ 53) :
    ofNat .binary64 n = roundWithAccuracy .binary64 .positive (n * 2 ^ (52 - n.log2))
      (0 - (52 - n.log2 : ℕ)) .exact := by
  have hlog : n.log2 < 53 := (Nat.log2_lt h).2 hn
  have htarget : (0 - Format.binary64.targetExponent (totalExponent n 0)).toNat = 52 - n.log2 := by
    show (0 - max ((n.log2 : ℤ) + 1 + 0 - 53) (-1074)).toNat = _
    omega
  have hpos : compare (n : ℤ) 0 = .gt := compare_gt_iff_gt.2 (by omega)
  unfold ofNat ofInt UnpackedFloat.normalize
  rw [hpos]
  simp only [UnpackedFloat.round, htarget, decreaseExponent, Int.toNat_natCast, Nat.shiftLeft_eq]

theorem normal_ofNat_of_lt {n : ℕ} (h : n ≠ 0) (hn : n < 2 ^ 53) :
    Normal .positive n (ofNat .binary64 n) := by
  have hlog : n.log2 < 53 := (Nat.log2_lt h).2 hn
  have hlong : 2 ^ 52 ≤ n * 2 ^ (52 - n.log2) := by
    calc 2 ^ 52 = 2 ^ n.log2 * 2 ^ (52 - n.log2) := by
          rw [← pow_add, Nat.add_sub_cancel' (by omega)]
      _ ≤ n * 2 ^ (52 - n.log2) := Nat.mul_le_mul_right _ (Nat.log2_self_le h)
  have hrounded := normal_roundWithAccuracy_scaled .positive hlong
    (e := 0 - (52 - n.log2 : ℕ)) (by omega) (by omega)
  rw [← ofNat_eq h hn, nearestNat_of_lt hn] at hrounded
  simpa using hrounded

theorem Normal.mul_one {n : ℕ} {x : UnpackedFloat} (hpos : n ≠ 0) (hn : n < 2 ^ 53)
    (h : Normal .positive n x) :
    Normal .positive n (mul .binary64 x (.finite .positive (2 ^ 52) (-52) (by decide))) := by
  cases h with
  | @intro m e hm full short least most size_eq =>
    have hsettled : Amount.Settled m e := ⟨short, least, .inl full⟩
    have hpower (f : ℤ) (hf : -1074 ≤ f) : Amount.Settled (2 ^ 52) f := ⟨by decide, hf, .inl le_rfl⟩
    -- The size of the number bounds the exponent, so that it fits the format with 52 more zeros.
    have hge : -52 ≤ e := by
      by_contra hlt
      have hless := hsettled.size_lt (hpower (-52) (by omega)) (by omega)
      rw [size_eq, show Amount.size (2 ^ 52) (-52) = 1 by norm_num [Amount.size]] at hless
      exact hpos (Nat.lt_one_iff.1 (by exact_mod_cast hless))
    have hle : e ≤ 1 := by
      by_contra hgt
      have hmore := (hpower 1 (by omega)).size_lt hsettled (by omega)
      rw [size_eq, show Amount.size (2 ^ 52) 1 = (2 ^ 53 : ℕ) by norm_num [Amount.size]] at hmore
      exact absurd (by exact_mod_cast hmore) hn.not_gt
    have hlog : m.log2 = 52 := (Nat.log2_eq_iff (by omega)).2 ⟨full, short⟩
    have hrounded := normal_roundWithAccuracy_scaled .positive (n := m) (k := 52) (e := e + -52)
      (by omega) (by omega) (by omega)
    rw [nearestNat_of_lt short] at hrounded
    rw [← size_eq]
    show Normal .positive _ (roundWithAccuracy .binary64 .positive (m * 2 ^ 52) (e + -52) .exact)
    simpa [Amount.size] using hrounded

theorem normal_ofNat {n : ℕ} (h : n ≠ 0) (hn : n < 2 ^ 64) :
    Normal .positive (nearestNat n) (Float.ofNat n).toModel.unpack := by
  have hlog : n.log2 < 64 := (Nat.log2_lt h).2 hn
  rcases lt_or_ge n (2 ^ 53) with hlt | hge
  · have hexact := normal_ofNat_of_lt h hlt
    have hproduct := hexact.mul_one h hlt
    rw [toModel_ofNat_of_lt hlt, hexact.unpack_pack, hproduct.unpack_pack, nearestNat_of_lt hlt]
    exact hproduct
  · have hrounded := normal_roundWithAccuracy_scaled .positive (n := n) (k := 53) (e := -53)
      (by omega) (by omega) (by omega)
    rw [toModel_ofNat_of_ge hge, ofScientific_zero h, hrounded.unpack_pack]
    simpa using hrounded

theorem Normal.neg {v : ℝ} {x : UnpackedFloat} (h : Normal .positive v x) :
    Normal .negative v x.neg := by
  cases h with
  | intro h full short least most size_eq => exact .intro h full short least most size_eq

theorem Normal.unpacked?_eq {v : ℝ} {x : UnpackedFloat} (h : Normal .positive v x) :
    Amount.unpacked? x = some (v : EReal) := by
  cases h with
  | intro h full short least most size_eq => exact congrArg (some ∘ Real.toEReal) size_eq

end Rounding

/-- The number that an integer becomes when it is converted. -/
def nearest (n : ℤ) : ℤ :=
  n.sign * Rounding.nearestNat n.natAbs

theorem nearest_natCast (n : ℕ) : nearest n = Rounding.nearestNat n := by
  unfold nearest
  rcases eq_or_ne n 0 with rfl | hn
  · rfl
  · rw [Int.sign_natCast_of_ne_zero hn, one_mul, Int.natAbs_natCast]

theorem nearest_neg (n : ℤ) : nearest (-n) = -nearest n := by
  unfold nearest
  rw [Int.sign_neg, Int.natAbs_neg, neg_mul]

theorem natAbs_nearest (n : ℤ) : (nearest n).natAbs = Rounding.nearestNat n.natAbs := by
  obtain ⟨k, rfl | rfl⟩ := n.eq_nat_or_neg
  · rw [nearest_natCast, Int.natAbs_natCast, Int.natAbs_natCast]
  · rw [nearest_neg, nearest_natCast, Int.natAbs_neg, Int.natAbs_neg, Int.natAbs_natCast,
      Int.natAbs_natCast]

theorem nearest_mono {m n : ℤ} (h : m ≤ n) : nearest m ≤ nearest n := by
  obtain ⟨j, rfl | rfl⟩ := m.eq_nat_or_neg <;> obtain ⟨k, rfl | rfl⟩ := n.eq_nat_or_neg <;>
    simp only [nearest_neg, nearest_natCast]
  · exact Int.ofNat_le.2 (Rounding.nearestNat_mono (Int.ofNat_le.1 h))
  · obtain ⟨rfl, rfl⟩ : j = 0 ∧ k = 0 := by omega
    decide
  · omega
  · exact neg_le_neg (Int.ofNat_le.2 (Rounding.nearestNat_mono (by omega)))

theorem nearest_of_lt {n : ℤ} (h : n.natAbs < 2 ^ 53) : nearest n = n := by
  unfold nearest
  rw [Rounding.nearestNat_of_lt h]
  exact Int.sign_mul_natAbs n

/-- No other integer becomes the same number as one below `2 ^ 53`. -/
theorem eq_of_nearest_eq {m n : ℤ} (hm : m.natAbs < 2 ^ 53) (h : nearest m = nearest n) :
    m = n := by
  rw [nearest_of_lt hm] at h
  rcases lt_or_ge n.natAbs (2 ^ 53) with hn | hn
  · rw [h, nearest_of_lt hn]
  · have hlong : 2 ^ 53 ≤ Rounding.nearestNat n.natAbs := by
      calc 2 ^ 53 = Rounding.nearestNat (2 ^ 53) := by decide
        _ ≤ Rounding.nearestNat n.natAbs := Rounding.nearestNat_mono hn
    rw [← natAbs_nearest, ← h] at hlong
    omega

theorem amount?_ofNat {n : ℕ} (hn : n < 2 ^ 64) :
    amount? (Float.ofNat n) = some ((nearest n : ℝ) : EReal) := by
  rcases eq_or_ne n 0 with rfl | h
  · have hzero : (Float.ofNat 0).toModel.unpack = .zero .positive := rfl
    unfold amount?
    rw [hzero, show nearest (0 : ℕ) = 0 from rfl, Int.cast_zero]
    rfl
  · rw [nearest_natCast]
    exact (Rounding.normal_ofNat h hn).unpacked?_eq

theorem amount?_neg_ofNat {n : ℕ} (h : n ≠ 0) (hn : n < 2 ^ 64) :
    amount? (Float.ofNat n).neg = some ((nearest (-n) : ℝ) : EReal) := by
  have hnormal := (Rounding.normal_ofNat h hn).neg
  show Amount.unpacked? (Float.Model.pack (Float.ofNat n).toModel.unpack.neg).unpack = _
  rw [hnormal.unpack_pack, Amount.unpacked?_neg]
  show (amount? (Float.ofNat n)).map _ = _
  rw [amount?_ofNat hn, nearest_neg]
  push_cast
  rfl

/-- An integer becomes the number that `nearest` gives. -/
theorem amount?_toNearest (n : Integer) :
    amount? n.toNearest = some ((nearest n.toInt : ℝ) : EReal) := by
  have hlow := n.le_toInt
  have hhigh := n.toInt_lt
  unfold Integer.toNearest
  generalize n.toInt = k at hlow hhigh ⊢
  cases k with
  | ofNat k => exact amount?_ofNat (by rw [Int.ofNat_eq_natCast] at hhigh; omega)
  | negSucc k => exact amount?_neg_ofNat k.succ_ne_zero (by omega)

end Arrow
