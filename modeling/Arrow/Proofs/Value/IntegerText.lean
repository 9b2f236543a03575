import Arrow.Builtin
import Arrow.Proofs.Value.Numbers
import Arrow.Value.Operation

/-!
# Texts of integers

The digits of an integer are read as the floating-point number that the integer is converted to
(`Text.number?_toString`), white space around them aside. So an integer equals its own text, though
the two meet only after rounding (`Value.integer_equals_its_text`).
-/

namespace Arrow

namespace Text

variable {before text behind : List Char}

theorem dropWhile_isSpace_append (hbefore : ∀ c ∈ before, isSpace c) (hne : text ≠ [])
    (htext : ∀ c ∈ text, ¬ isSpace c) :
    (before ++ text ++ behind).dropWhile isSpace = text ++ behind := by
  obtain ⟨c, rest, rfl⟩ := List.exists_cons_of_ne_nil hne
  rw [List.append_assoc, List.dropWhile_append_of_pos hbefore]
  exact List.dropWhile_cons_of_neg (htext c List.mem_cons_self)

/-- White space around a text that has none is removed. -/
theorem trim_append (hbefore : ∀ c ∈ before, isSpace c) (hbehind : ∀ c ∈ behind, isSpace c)
    (hne : text ≠ []) (htext : ∀ c ∈ text, ¬ isSpace c) :
    trim (before ++ text ++ behind) = text := by
  have hback : (behind.reverse ++ text.reverse ++ []).dropWhile isSpace = text.reverse ++ [] :=
    dropWhile_isSpace_append (fun c hc => hbehind c (List.mem_reverse.1 hc))
      (by simpa using hne) fun c hc => htext c (List.mem_reverse.1 hc)
  unfold trim
  rw [dropWhile_isSpace_append hbefore hne htext, List.reverse_append, ← List.append_nil
    (behind.reverse ++ text.reverse), hback, List.append_nil, List.reverse_reverse]

end Text

/-! ## Digits -/

namespace Decimal

theorem not_isSpace_of_isDigit {c : Char} (h : c.isDigit) : ¬ Text.isSpace c := by
  have hrange : 48 ≤ c.toNat ∧ c.toNat ≤ 57 := Char.isDigit_iff_toNat.1 h
  simp only [Text.isSpace, Text.spaceRanges, List.any_cons, List.any_nil, Bool.or_eq_true,
    Bool.and_eq_true, decide_eq_true_eq, Bool.false_eq_true, or_false]
  omega

theorem toLower_of_isDigit {c : Char} (h : c.isDigit) : c.toLower = c := by
  have hdigit : c.toNat ≤ 57 := (Char.isDigit_iff_toNat.1 h).2
  unfold Char.toLower
  refine dif_neg fun hupper => ?_
  have hletter : 65 ≤ c.toNat := UInt32.le_iff_toNat_le.1 hupper.1
  omega

theorem natOfDigits_toDigits (n : ℕ) : natOfDigits (Nat.toDigits 10 n) = n := by
  unfold natOfDigits
  rw [← Nat.ofDigitChars_eq_foldl, Nat.ofDigitChars_ten_toDigits]

/-- Digits alone are read as the whole number that they denote. -/
theorem magnitude?_of_isDigit {digits : List Char} (hne : digits ≠ [])
    (h : ∀ c ∈ digits, c.isDigit) :
    magnitude? digits = some (toFloat ⟨natOfDigits digits, 0⟩) := by
  have hlower : digits.map Char.toLower = digits :=
    List.map_congr_left (fun c hc => toLower_of_isDigit (h c hc)) |>.trans (List.map_id _)
  have htake : digits.takeWhile Char.isDigit = digits := List.takeWhile_eq_self_iff.2 h
  have hdrop : digits.dropWhile Char.isDigit = [] := List.dropWhile_eq_nil_iff.2 h
  have hread : unsigned? digits = some ⟨natOfDigits digits, 0⟩ := by
    unfold unsigned?
    simp [htake, hdrop, hne, ofDigits, exponent?]
  unfold magnitude?
  rw [hlower]
  -- The words that are read as numbers begin with letters.
  split
  case h_1 => exact absurd (h 'i' List.mem_cons_self) (by decide)
  case h_2 => exact absurd (h 'i' List.mem_cons_self) (by decide)
  case h_3 => exact absurd (h 'n' List.mem_cons_self) (by decide)
  case h_4 => rw [hread]; rfl

theorem toFloat_natCast {n : ℕ} (h : n < 2 ^ 64) : toFloat ⟨n, 0⟩ = Float.ofNat n := by
  have hwidth : width n ≤ 20 :=
    (Nat.length_toDigits_le_iff (by decide) (by decide)).2 (h.trans (by decide))
  unfold toFloat
  dsimp only
  rcases eq_or_ne n 0 with rfl | hn
  · rfl
  · rw [if_neg (by omega), if_neg (by omega)]
    rfl

theorem magnitude?_toDigits {n : ℕ} (h : n < 2 ^ 64) :
    magnitude? (Nat.toDigits 10 n) = some (Float.ofNat n) := by
  rw [magnitude?_of_isDigit Nat.toDigits_ne_nil
    (fun c => Nat.isDigit_of_mem_toDigits (by decide) (by decide)), natOfDigits_toDigits,
    toFloat_natCast h]

theorem float?_toDigits {n : ℕ} (h : n < 2 ^ 64) :
    float? (Nat.toDigits 10 n) = some (Float.ofNat n) := by
  have hdigit : ∀ c ∈ Nat.toDigits 10 n, c.isDigit := fun c =>
    Nat.isDigit_of_mem_toDigits (by decide) (by decide)
  rw [← magnitude?_toDigits h]
  unfold float?
  split
  case h_1 heq => exact absurd (hdigit '+' (heq ▸ List.mem_cons_self)) (by decide)
  case h_2 heq => exact absurd (hdigit '-' (heq ▸ List.mem_cons_self)) (by decide)
  case h_3 => rfl

/-- The text of an integer is read as the number that the integer is converted to. -/
theorem float?_toString (n : Integer) :
    float? (toString n.toInt).toList = some n.toNearest := by
  have hlow := n.le_toInt
  have hhigh := n.toInt_lt
  unfold Integer.toNearest
  generalize n.toInt = k at hlow hhigh ⊢
  cases k with
  | ofNat k =>
    show float? (Nat.repr k).toList = some (Float.ofNat k)
    rw [Nat.toList_repr, float?_toDigits (by rw [Int.ofNat_eq_natCast] at hhigh; omega)]
  | negSucc k =>
    show float? ("-" ++ Nat.repr (k + 1)).toList = some (-Float.ofNat (k + 1))
    rw [String.toList_append, Nat.toList_repr]
    show (magnitude? (Nat.toDigits 10 (k + 1))).map (-·) = _
    rw [magnitude?_toDigits (by omega)]
    rfl

theorem not_isSpace_toString (n : ℤ) : ∀ c ∈ (toString n).toList, ¬ Text.isSpace c := by
  have hdigits (k : ℕ) : ∀ c ∈ (Nat.repr k).toList, ¬ Text.isSpace c := by
    intro c hc
    rw [Nat.toList_repr] at hc
    exact not_isSpace_of_isDigit (Nat.isDigit_of_mem_toDigits (by decide) (by decide) hc)
  cases n with
  | ofNat k => exact hdigits k
  | negSucc k =>
    show ∀ c ∈ ("-" ++ Nat.repr (k + 1)).toList, ¬ Text.isSpace c
    rw [String.toList_append]
    exact List.forall_mem_cons.2 ⟨by decide, hdigits (k + 1)⟩

end Decimal

theorem Text.number?_toString (n : Integer) {before behind : String}
    (hbefore : ∀ c ∈ before.toList, isSpace c) (hbehind : ∀ c ∈ behind.toList, isSpace c) :
    number? (before ++ toString n.toInt ++ behind) = some n.toNearest := by
  have hread := Decimal.float?_toString n
  have hne : (toString n.toInt).toList ≠ [] := fun h => by
    rw [h] at hread
    exact nomatch hread
  unfold number?
  rw [String.toList_append, String.toList_append,
    trim_append hbefore hbehind hne (Decimal.not_isSpace_toString _), hread]

namespace Value

/-! ## Integers and their texts -/

theorem floatOrder?_toNearest (n : Integer) : floatOrder? n.toNearest n.toNearest = some .eq := by
  rw [floatOrder?_eq_map₂, amount?_toNearest, Option.map₂_some_some, compare_eq_iff_eq.2 rfl]

/-- A text that is read as the number that an integer is converted to equals the integer. -/
theorem equals_of_number? {content : String} {n : Integer}
    (h : Text.number? content = some n.toNearest) :
    looseCompare? (text content) (integer n) = some .eq ∧
      looseCompare? (integer n) (text content) = some .eq := by
  have hcompare : looseCompare? (text content) (integer n) = some .eq := by
    have hkind : (text content).kind ≠ (integer n).kind := nofun
    have hcoerced : (text content).coerced? = some n.toNearest := h
    rw [looseCompare?_of_kind_ne hkind, hcoerced]
    exact floatOrder?_toNearest n
  refine ⟨hcompare, ?_⟩
  rw [looseCompare?_swap, hcompare]
  rfl

/--
The text of an integer is the same by conversion, by addition to a text and by printing, and the
integer equals it, from both sides, whatever white space stands around it.
-/
theorem integer_equals_its_text (n : Integer) (p : Position) :
    ∃ digits : String,
      Builtin.str.call [integer n] p = pure (text digits) ∧
      (∀ content, arithmetic .add (text content) (integer n) p = .ok (text (content ++ digits)) ∧
        arithmetic .add (integer n) (text content) p = .ok (text (digits ++ content))) ∧
      Builtin.output.call [integer n] p = (do Action.write digits p; pure .null) ∧
      Builtin.print.call [integer n] p = (do Action.write (digits ++ "\n") p; pure .null) ∧
      ∀ before behind : String, (∀ c ∈ before.toList, Text.isSpace c) →
        (∀ c ∈ behind.toList, Text.isSpace c) →
        let written := text (before ++ digits ++ behind)
        looseEq written (integer n) ∧ looseEq (integer n) written ∧
          looseCompare? written (integer n) = some .eq ∧
          looseCompare? (integer n) written = some .eq := by
  refine ⟨toString n.toInt, rfl, fun content => ⟨rfl, rfl⟩, rfl, rfl, ?_⟩
  intro before behind hbefore hbehind written
  obtain ⟨hleft, hright⟩ := equals_of_number? (Text.number?_toString n hbefore hbehind)
  exact ⟨((looseCompare?_eq_eq_iff _ _).1 hleft).1, ((looseCompare?_eq_eq_iff _ _).1 hright).1,
    hleft, hright⟩

/-- The least integer, with a blank, a tab, the end of a line and a wide blank around its text. -/
theorem integer_equals_its_text_of_least :
    let n : Integer := Int64.minValue
    let written := text (" \t" ++ "-9223372036854775808" ++ "\n\u3000")
    Builtin.str.call [integer n] .start = pure (text "-9223372036854775808") ∧
    (∀ c ∈ " \t".toList, Text.isSpace c) ∧ (∀ c ∈ "\n\u3000".toList, Text.isSpace c) ∧
    looseEq written (integer n) ∧ looseEq (integer n) written ∧
    looseCompare? written (integer n) = some .eq ∧
    looseCompare? (integer n) written = some .eq := by
  intro n written
  obtain ⟨digits, hstr, -, -, -, hequal⟩ := integer_equals_its_text n .start
  have hrender : (integer n).render = "-9223372036854775808" := by cbv
  have hleast : Builtin.str.call [integer n] .start = pure (text "-9223372036854775808") :=
    congrArg (fun content => (pure (text content) : Action Value)) hrender
  obtain rfl : digits = "-9223372036854775808" := by
    have hsame : (pure (text digits) : Action Value) = pure (text "-9223372036854775808") :=
      hstr.symm.trans hleast
    simpa [Action.perform_pure] using congrArg (·.perform .initial) hsame
  have hbefore : ∀ c ∈ " \t".toList, Text.isSpace c := List.all_eq_true.1 (by decide +kernel)
  have hbehind : ∀ c ∈ "\n\u3000".toList, Text.isSpace c := List.all_eq_true.1 (by decide +kernel)
  exact ⟨hleast, hbefore, hbehind, hequal " \t" "\n\u3000" hbefore hbehind⟩

end Value

end Arrow
