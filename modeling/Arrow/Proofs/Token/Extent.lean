import Arrow.Proofs.Token.Truncation

/-!
# The extent of tokens

A token begins with characters at the front of the text, and ends within it
(`Scan.length_le_of_ofChars`).
-/

namespace Arrow

variable {source : List Char}

theorem length_takeWhile_lt {test : Char → Bool} (h : source.dropWhile test ≠ []) :
    (source.takeWhile test).length < source.length := by
  refine Nat.lt_of_le_of_ne (List.takeWhile_prefix test).length_le fun hlength => ?_
  have hwhole := List.takeWhile_append_dropWhile (p := test) (l := source)
  rw [(List.takeWhile_prefix test).eq_of_length hlength] at hwhole
  exact h (List.append_right_eq_self.1 hwhole)

/-! ## Beginnings of tokens -/

namespace Lexeme

theorem isPrefix_nameFront (source : List Char) : nameFront source <+: source := by
  unfold nameFront
  split
  · exact List.takeWhile_prefix _
  · exact List.nil_prefix

theorem isPrefix_fractionFront {rest : List Char} (h : fractionFront rest ≠ []) :
    '.' :: fractionFront rest <+: rest := by
  cases rest with
  | nil => exact absurd rfl h
  | cons c rest =>
    by_cases hpoint : c = '.'
    · subst hpoint
      exact List.cons_prefix_cons.2 ⟨rfl, List.takeWhile_prefix _⟩
    · exact absurd (fractionFront_cons_of_ne hpoint rest) h

theorem isPrefix_numberFront (source : List Char) : numberFront source <+: source := by
  unfold numberFront
  dsimp only
  split
  case isTrue => exact List.takeWhile_prefix _
  case isFalse hboth =>
    rw [Bool.or_eq_true, not_or, List.isEmpty_iff, List.isEmpty_iff] at hboth
    have hrest := isPrefix_fractionFront hboth.2
    rw [← List.prefix_append_right_inj (source.takeWhile Char.isDigit),
      List.takeWhile_append_dropWhile] at hrest
    exact hrest

theorem prefix_of_mem_fronts {entry : List Char × Lexeme} (h : entry ∈ fronts source) :
    entry.1 <+: source := by
  unfold fronts at h
  rcases List.mem_append.1 h with h | h
  · exact List.isPrefixOf_iff_prefix.1 (List.mem_filter.1 h).2
  · simp only [List.mem_cons, List.not_mem_nil, or_false] at h
    rcases h with rfl | rfl
    · exact isPrefix_nameFront source
    · exact isPrefix_numberFront source

theorem foldl_longer_mem (entries : List (List Char × Lexeme)) (best : List Char × Lexeme) :
    entries.foldl longer best ∈ best :: entries := by
  induction entries generalizing best with
  | nil => exact List.mem_cons_self
  | cons other entries ih =>
    rw [List.foldl_cons]
    have hlonger : longer best other = best ∨ longer best other = other := by
      unfold longer
      split
      · exact .inr rfl
      · exact .inl rfl
    rcases hlonger with heq | heq <;> rw [heq]
    · rcases List.mem_cons.1 (ih best) with h | h
      · rw [h]
        exact List.mem_cons_self
      · exact List.mem_cons_of_mem _ (List.mem_cons_of_mem _ h)
    · exact List.mem_cons_of_mem _ (ih other)

theorem mem_fronts_of_front? {front : List Char} {lexeme : Lexeme}
    (h : front? source = some (front, lexeme)) : (front, lexeme) ∈ fronts source := by
  have hmem := foldl_longer_mem (fronts source) ([], name)
  unfold front? at h
  split at h
  case h_1 => exact nomatch h
  case h_2 hnone =>
    rw [Option.some.inj h] at hmem
    rcases List.mem_cons.1 hmem with heq | hmem
    · exact (hnone name ((Option.some.inj h).trans heq)).elim
    · exact hmem

end Lexeme

/-! ## Tokens -/

theorem blockLength_le (source : List Char) : blockLength source ≤ source.length := by
  induction source with
  | nil => exact Nat.le_refl 0
  | cons c source ih =>
    rw [blockLength_cons]
    split
    case isTrue hmark => exact hmark.length_le
    case isFalse => exact Nat.succ_le_succ ih

namespace Scan

variable {p : Position} {front : List Char} {lexeme : Lexeme} {c : Char} {scan : Scan}

theorem length_extend_le (kind : TokenKind) (h : front ≠ []) {more : Nat}
    (hmore : more ≤ source.length) :
    (extend kind front h more).length ≤ front.length + source.length :=
  Nat.add_le_add_left hmore _

theorem length_le_add_of_ofLess (h : front ≠ []) (hscan : ofLess p front h source = .ok scan) :
    scan.length ≤ front.length + source.length := by
  unfold ofLess at hscan
  split at hscan
  case h_1 =>
    cases hscan
    exact length_extend_le _ h (Nat.zero_le _)
  case h_2 words hwords =>
    split at hscan
    case h_1 =>
      cases hscan
      exact length_extend_le _ h (Marker.length_le_of_ofChars? hwords)
    case h_2 => exact nomatch hscan

theorem length_le_add_of_ofLexeme (h : front ≠ [])
    (hscan : ofLexeme p lexeme front h source = .ok scan) :
    scan.length ≤ front.length + source.length := by
  unfold ofLexeme at hscan
  split at hscan
  case h_2 => exact length_le_add_of_ofLess h hscan
  case h_6 =>
    split at hscan
    case h_1 =>
      cases hscan
      exact length_extend_le _ h (Nat.zero_le _)
    case h_2 => cases hscan
  case h_7 =>
    dsimp only at hscan
    split at hscan
    case h_1 => cases hscan
    case h_2 quote behind hquote =>
      cases hscan
      have hclosed : source.dropWhile (fun c => decide (c ≠ '"')) ≠ [] := by
        rw [hquote]
        exact List.cons_ne_nil _ _
      exact length_extend_le _ h (length_takeWhile_lt hclosed)
  case h_8 =>
    cases hscan
    exact length_extend_le _ h (List.takeWhile_prefix _).length_le
  case h_9 =>
    cases hscan
    exact length_extend_le _ h (blockLength_le source)
  all_goals
    cases hscan
    exact length_extend_le _ h (Nat.zero_le _)

theorem length_le_of_ofChars (h : ofChars p c source = .ok scan) :
    scan.length ≤ (c :: source).length := by
  unfold ofChars at h
  split at h
  case h_2 => exact nomatch h
  case h_1 d front lexeme hfront =>
    have hprefix := Lexeme.prefix_of_mem_fronts (Lexeme.mem_fronts_of_front? hfront)
    have hlength := hprefix.length_le
    have hle := length_le_add_of_ofLexeme _ h
    rw [List.length_drop] at hle
    simp only [List.length_cons] at hlength hle ⊢
    omega

end Scan

end Arrow
