import Mathlib

/-!
# The order of texts and of their bytes

Texts are ordered by the codes of their characters, and UTF-8 keeps that order: the first byte of an
encoding tells how long it is, longer encodings belong to greater codes, and within one length the
bytes are the digits of the code. So texts stand in the order of the bytes that encode them
(`Text.bytes_lt_bytes_iff`).
-/

namespace Arrow

namespace Text

/-- The bytes that encode a text in UTF-8. -/
def bytes (text : String) : List UInt8 :=
  text.toUTF8.data.toList

theorem bytes_eq_flatMap (text : String) :
    bytes text = text.toList.flatMap String.utf8EncodeChar := by
  unfold bytes
  rw [String.toUTF8_eq_toByteArray, ← String.utf8Encode_toList]
  exact List.toList_data_toByteArray

/-! ## One character -/

/-- The last `k` bytes of an encoding that has more of them, six binary digits in each. -/
def continuation : ℕ → ℕ → List UInt8
  | 0, _ => []
  | k + 1, code => UInt8.ofNat (code / 64 ^ k % 64 + 128) :: continuation k code

theorem cons_ofNat_lt {m n : ℕ} {s t : List UInt8} (hm : m < 256) (hn : n < 256)
    (h : m < n ∨ m = n ∧ s < t) : UInt8.ofNat m :: s < UInt8.ofNat n :: t := by
  rw [List.cons_lt_cons_iff, UInt8.lt_iff_toNat_lt, ← UInt8.toNat_inj, UInt8.toNat_ofNat_of_lt' hm,
    UInt8.toNat_ofNat_of_lt' hn]
  exact h

theorem continuation_lt {k v w : ℕ} (h : v % 64 ^ k < w % 64 ^ k) (s t : List UInt8) :
    continuation k v ++ s < continuation k w ++ t := by
  induction k with
  | zero => simp [Nat.mod_one] at h
  | succ k ih =>
    refine cons_ofNat_lt (by omega) (by omega) ?_
    rw [Nat.mod_pow_succ, Nat.mod_pow_succ] at h
    rcases lt_trichotomy (v / 64 ^ k % 64) (w / 64 ^ k % 64) with hlt | heq | hgt
    · exact .inl (by omega)
    · rw [heq] at h ⊢
      exact .inr ⟨rfl, ih (by omega)⟩
    · -- The digit weighs more than all digits behind it.
      have hw := Nat.mod_lt w (Nat.pow_pos (n := k) (show 0 < 64 by decide))
      have hmul := Nat.mul_le_mul_left (64 ^ k) (Nat.succ_le_of_lt hgt)
      rw [Nat.mul_succ] at hmul
      omega

/-- The first byte of the encoding of a code, and how many bytes follow. -/
inductive FirstByte (code : ℕ) : ℕ → ℕ → Prop
  | one (h : code < 128) : FirstByte code code 0
  | two (h : 128 ≤ code) (h' : code < 2048) : FirstByte code (code / 64 + 192) 1
  | three (h : 2048 ≤ code) (h' : code < 65536) : FirstByte code (code / 4096 + 224) 2
  | four (h : 65536 ≤ code) (h' : code < 1114112) : FirstByte code (code / 262144 + 240) 3

theorem FirstByte.lt_256 {code lead k : ℕ} (h : FirstByte code lead k) : lead < 256 := by
  cases h <;> omega

theorem utf8EncodeChar_eq (c : Char) : ∃ lead k, FirstByte c.val.toNat lead k ∧
    String.utf8EncodeChar c = UInt8.ofNat lead :: continuation k c.val.toNat := by
  have hc : c.val.toNat < 1114112 := by
    have hvalid := c.valid
    unfold UInt32.isValidChar Nat.isValidChar at hvalid
    omega
  unfold String.utf8EncodeChar
  generalize c.val.toNat = code at hc
  dsimp only
  split_ifs with h₁ h₂ h₃
  · exact ⟨_, _, .one (by omega), rfl⟩
  · refine ⟨_, _, .two (by omega) (by omega), ?_⟩
    rw [Nat.mod_eq_of_lt (a := code / 64) (by omega)]
    simp [continuation]
  · refine ⟨_, _, .three (by omega) (by omega), ?_⟩
    rw [Nat.mod_eq_of_lt (a := code / 4096) (by omega)]
    simp [continuation]
  · refine ⟨_, _, .four (by omega) (by omega), ?_⟩
    rw [Nat.mod_eq_of_lt (a := code / 262144) (by omega)]
    simp [continuation]

theorem utf8EncodeChar_append_lt {c d : Char} (h : c < d) (s t : List UInt8) :
    String.utf8EncodeChar c ++ s < String.utf8EncodeChar d ++ t := by
  have hcode : c.val.toNat < d.val.toNat := h
  obtain ⟨m, j, hm, hc⟩ := utf8EncodeChar_eq c
  obtain ⟨n, k, hn, hd⟩ := utf8EncodeChar_eq d
  rw [hc, hd]
  generalize c.val.toNat = v at hm hcode ⊢
  generalize d.val.toNat = w at hn hcode ⊢
  rcases lt_trichotomy m n with hlt | heq | hgt
  · exact cons_ofNat_lt hm.lt_256 hn.lt_256 (.inl hlt)
  · obtain rfl : j = k := by cases hm <;> cases hn <;> omega
    have hrest : v % 64 ^ j < w % 64 ^ j := by cases hm <;> cases hn <;> omega
    exact cons_ofNat_lt hm.lt_256 hn.lt_256 (.inr ⟨heq, continuation_lt hrest s t⟩)
  · cases hm <;> cases hn <;> omega

/-! ## Texts -/

theorem flatMap_lt_flatMap {cs ds : List Char} (h : cs < ds) :
    cs.flatMap String.utf8EncodeChar < ds.flatMap String.utf8EncodeChar := by
  induction h with
  | @nil d ds =>
    obtain ⟨byte, bytes, hbytes⟩ := List.exists_cons_of_ne_nil (@String.utf8EncodeChar_ne_nil d)
    rw [List.flatMap_nil, List.flatMap_cons, hbytes]
    exact .nil
  | rel h => exact utf8EncodeChar_append_lt h _ _
  | cons h ih => exact List.append_left_lt ih

theorem bytes_lt_bytes {s t : String} (h : s < t) : bytes s < bytes t := by
  rw [bytes_eq_flatMap, bytes_eq_flatMap]
  exact flatMap_lt_flatMap h

/-- Texts stand in the order of the bytes that encode them. -/
theorem bytes_lt_bytes_iff {s t : String} : bytes s < bytes t ↔ s < t := by
  refine ⟨fun h => String.not_le.1 fun hle => ?_, bytes_lt_bytes⟩
  by_cases heq : s = t
  · exact List.lt_irrefl _ (heq ▸ h)
  · have hlt : t < s := String.not_le.1 fun hle' => heq (String.le_antisymm hle' hle)
    exact List.lt_asymm h (bytes_lt_bytes hlt)

end Text

end Arrow
