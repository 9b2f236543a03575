import Arrow.Token.Lexer

/-!
# Cutting a source text

What a token is does not depend on what follows behind it: a scan of `source ++ tail` that stays
within `source` is a scan of `source` (`Scan.ofChars_append`). So a text that cannot be split into
tokens can be split up to the place where that fails (`tokenizeFrom_error`).
-/

namespace Arrow

variable {source tail : List Char}

/-! ## Runs of characters -/

theorem takeWhile_append_of_length_le {test : Char → Bool}
    (h : ((source ++ tail).takeWhile test).length ≤ source.length) :
    (source ++ tail).takeWhile test = source.takeWhile test := by
  rw [List.takeWhile_append] at h ⊢
  split at h
  case isTrue hall =>
    have hprefix := (List.takeWhile_prefix test (l := source)).eq_of_length hall
    rw [List.length_append] at h
    have htail : (tail.takeWhile test).length = 0 := by omega
    rw [if_pos hall, List.length_eq_zero_iff.1 htail, List.append_nil, hprefix]
  case isFalse hsome => rw [if_neg hsome]

/-- A run that ends before the tail stays the same whatever the tail is. -/
theorem takeWhile_append_of_length_lt {test : Char → Bool}
    (h : ((source ++ tail).takeWhile test).length < source.length) (other : List Char) :
    (source ++ other).takeWhile test = (source ++ tail).takeWhile test := by
  have hcut := takeWhile_append_of_length_le (Nat.le_of_lt h)
  rw [hcut] at h ⊢
  rw [List.takeWhile_append, if_neg (Nat.ne_of_lt h)]

theorem dropWhile_append_of_length_le {test : Char → Bool}
    (h : ((source ++ tail).takeWhile test).length ≤ source.length) :
    (source ++ tail).dropWhile test = source.dropWhile test ++ tail := by
  have hfull := List.takeWhile_append_dropWhile (p := test) (l := source ++ tail)
  have hcut := List.takeWhile_append_dropWhile (p := test) (l := source)
  rw [takeWhile_append_of_length_le h] at hfull
  apply (List.append_right_inj (source.takeWhile test)).1
  rw [hfull, ← List.append_assoc, hcut]

theorem prefix_append_iff {front : List Char} (h : front.length ≤ source.length) :
    front <+: source ++ tail ↔ front <+: source := by
  constructor
  · intro hfront
    exact List.prefix_of_prefix_length_le hfront (List.prefix_append source tail) h
  · intro hfront
    exact hfront.trans (List.prefix_append source tail)

/-! ## Beginnings of tokens -/

namespace Lexeme

theorem nameFront_append (h : (nameFront (source ++ tail)).length ≤ source.length) :
    nameFront (source ++ tail) = nameFront source := by
  cases source with
  | nil => exact List.length_eq_zero_iff.1 (Nat.le_zero.1 h)
  | cons c source =>
    unfold nameFront at h ⊢
    rw [List.cons_append, List.head?_cons] at h ⊢
    split at h
    case isTrue hstart =>
      rw [if_pos hstart, List.head?_cons, if_pos hstart]
      have hrun : ((c :: source ++ tail).takeWhile isNamePart).length ≤ (c :: source).length := h
      exact takeWhile_append_of_length_le hrun
    case isFalse hstart => rw [if_neg hstart, List.head?_cons, if_neg hstart]

theorem nameFront_append_of_length_lt
    (h : (nameFront (source ++ tail)).length < source.length) (other : List Char) :
    nameFront (source ++ other) = nameFront (source ++ tail) := by
  cases source with
  | nil => exact absurd h (Nat.not_lt_zero _)
  | cons c source =>
    unfold nameFront at h ⊢
    rw [List.cons_append, List.head?_cons] at h
    rw [List.cons_append, List.cons_append, List.head?_cons, List.head?_cons]
    split at h
    case isTrue hstart =>
      rw [if_pos hstart, if_pos hstart]
      have hrun : ((c :: source ++ tail).takeWhile isNamePart).length < (c :: source).length := h
      exact takeWhile_append_of_length_lt hrun other
    case isFalse hstart => rw [if_neg hstart, if_neg hstart]

theorem fractionFront_cons_of_ne {c : Char} (h : c ≠ '.') (rest : List Char) :
    fractionFront (c :: rest) = [] := by
  unfold fractionFront
  split
  case h_1 heq => exact absurd (List.cons.inj heq).1 h
  case h_2 => rfl

theorem fractionFront_append
    (h : fractionFront (source ++ tail) = [] ∨
      (fractionFront (source ++ tail)).length < source.length) :
    fractionFront (source ++ tail) = fractionFront source := by
  cases source with
  | nil => exact h.resolve_right (Nat.not_lt_zero _)
  | cons c source =>
    by_cases hpoint : c = '.'
    · subst hpoint
      show (source ++ tail).takeWhile Char.isDigit = source.takeWhile Char.isDigit
      apply takeWhile_append_of_length_le
      rcases h with h | h
      · have hnone : (source ++ tail).takeWhile Char.isDigit = [] := h
        rw [hnone]
        exact Nat.zero_le _
      · exact Nat.le_of_lt_succ h
    · rw [List.cons_append, fractionFront_cons_of_ne hpoint, fractionFront_cons_of_ne hpoint]

theorem length_whole_le_numberFront (source : List Char) :
    (source.takeWhile Char.isDigit).length ≤ (numberFront source).length := by
  unfold numberFront
  dsimp only
  split
  case isTrue => exact Nat.le_refl _
  case isFalse =>
    rw [List.length_append]
    exact Nat.le_add_right _ _

theorem numberFront_append (h : (numberFront (source ++ tail)).length ≤ source.length) :
    numberFront (source ++ tail) = numberFront source := by
  have hwhole := Nat.le_trans (length_whole_le_numberFront (source ++ tail)) h
  have hrest := dropWhile_append_of_length_le hwhole
  have hwhole := takeWhile_append_of_length_le hwhole
  have hlength := congrArg List.length
    (List.takeWhile_append_dropWhile (p := Char.isDigit) (l := source))
  rw [List.length_append] at hlength
  unfold numberFront at h ⊢
  rw [hrest, hwhole] at h ⊢
  dsimp only at h ⊢
  by_cases hempty : source.takeWhile Char.isDigit = []
  · rw [hempty]
    rfl
  · rw [fractionFront_append]
    by_cases hnone : fractionFront (source.dropWhile Char.isDigit ++ tail) = []
    · exact .inl hnone
    · right
      rw [if_neg (by simp [hempty, hnone]), List.length_append, List.length_cons] at h
      omega

/-- All beginnings stay the same when none of them reaches into the tail. -/
theorem fronts_append
    (h : ∀ entry ∈ fronts (source ++ tail), entry.1.length ≤ source.length) :
    fronts (source ++ tail) = fronts source := by
  unfold fronts at h ⊢
  have hname := h (nameFront (source ++ tail), name) (by simp)
  have hnumber := h (numberFront (source ++ tail), number) (by simp)
  rw [nameFront_append hname, numberFront_append hnumber]
  congr 1
  refine List.filter_congr fun entry hentry => ?_
  rw [Bool.eq_iff_iff, List.isPrefixOf_iff_prefix, List.isPrefixOf_iff_prefix]
  constructor
  · intro hfront
    have hmem : entry ∈ spellings.filter (·.1.isPrefixOf (source ++ tail)) :=
      List.mem_filter.2 ⟨hentry, List.isPrefixOf_iff_prefix.2 hfront⟩
    exact (prefix_append_iff (h entry (List.mem_append_left _ hmem))).1 hfront
  · intro hfront
    exact hfront.trans (List.prefix_append source tail)

theorem length_le_longer_left (best other : List Char × Lexeme) :
    best.1.length ≤ (longer best other).1.length := by
  unfold longer
  split <;> omega

theorem length_le_longer_right (best other : List Char × Lexeme) :
    other.1.length ≤ (longer best other).1.length := by
  unfold longer
  split <;> omega

theorem length_le_foldl_longer (entries : List (List Char × Lexeme)) (best : List Char × Lexeme) :
    best.1.length ≤ (entries.foldl longer best).1.length ∧
      ∀ entry ∈ entries, entry.1.length ≤ (entries.foldl longer best).1.length := by
  induction entries generalizing best with
  | nil => exact ⟨Nat.le_refl _, fun _ h => nomatch h⟩
  | cons other entries ih =>
    obtain ⟨hbest, hentries⟩ := ih (longer best other)
    refine ⟨Nat.le_trans (length_le_longer_left best other) hbest, fun entry hentry => ?_⟩
    rcases List.mem_cons.1 hentry with rfl | hentry
    · exact Nat.le_trans (length_le_longer_right best entry) hbest
    · exact hentries entry hentry

/-- No beginning is longer than the one that is taken. -/
theorem length_le_of_front? {front : List Char} {lexeme : Lexeme}
    (h : front? source = some (front, lexeme)) :
    ∀ entry ∈ fronts source, entry.1.length ≤ front.length := by
  have hle := (length_le_foldl_longer (fronts source) ([], name)).2
  unfold front? at h
  split at h
  case h_1 => exact nomatch h
  case h_2 =>
    rw [Option.some.inj h] at hle
    exact hle

theorem front?_append {front : List Char} {lexeme : Lexeme}
    (h : front? (source ++ tail) = some (front, lexeme)) (hlength : front.length ≤ source.length) :
    front? source = some (front, lexeme) := by
  have hfronts : fronts (source ++ tail) = fronts source :=
    fronts_append fun entry hentry => Nat.le_trans (length_le_of_front? h entry hentry) hlength
  unfold front? at h ⊢
  rw [← hfronts]
  exact h

end Lexeme

/-! ## Markers -/

theorem Marker.length_le_of_ofChars? {words : Marker} (h : ofChars? source = some words) :
    words.length ≤ source.length := by
  unfold ofChars? at h
  dsimp only at h
  split at h
  case h_1 hclosing =>
    obtain rfl := Option.some.inj h
    have hlength := congrArg List.length hclosing
    simp only [List.length_drop, List.length_cons] at hlength
    dsimp only
    omega
  case h_2 => exact nomatch h

/-- A marker ends at its closing bracket, whatever follows. -/
theorem Marker.ofChars?_append {words : Marker} (h : ofChars? (source ++ tail) = some words)
    (hlength : words.length ≤ source.length) (other : List Char) :
    ofChars? (source ++ other) = some words := by
  unfold ofChars? at h
  dsimp only at h
  generalize hfirst : Lexeme.nameFront (source ++ tail) = first at h
  generalize hgap : ((source ++ tail).drop first.length).takeWhile isGap = gap at h
  generalize hsecond :
    Lexeme.nameFront (((source ++ tail).drop first.length).drop gap.length) = second at h
  generalize hlast : (((source ++ tail).drop first.length).drop
    (gap.length + second.length)).takeWhile isGap = last at h
  split at h
  case h_2 => exact nomatch h
  case h_1 _ d word behind hclosing =>
    obtain rfl := Option.some.inj h
    dsimp only at hlength
    -- The closing bracket is in front of the tail, so no part of the marker reaches into it.
    have hdrop (t : List Char) :
        (source ++ t).drop (d :: word).length = source.drop (d :: word).length ++ t :=
      List.drop_append_of_le_length (by omega)
    have hdrop' (t : List Char) :
        (source.drop (d :: word).length ++ t).drop gap.length =
          (source.drop (d :: word).length).drop gap.length ++ t :=
      List.drop_append_of_le_length (by rw [List.length_drop]; omega)
    have hdrop'' (t : List Char) :
        (source.drop (d :: word).length ++ t).drop (gap.length + second.length) =
          (source.drop (d :: word).length).drop (gap.length + second.length) ++ t :=
      List.drop_append_of_le_length (by rw [List.length_drop]; omega)
    rw [hdrop] at hgap hsecond hlast hclosing
    rw [hdrop'] at hsecond
    rw [hdrop''] at hlast hclosing
    unfold ofChars?
    dsimp only
    rw [Lexeme.nameFront_append_of_length_lt (by rw [hfirst]; omega) other, hfirst, hdrop,
      takeWhile_append_of_length_lt (by rw [hgap, List.length_drop]; omega) other, hgap, hdrop',
      Lexeme.nameFront_append_of_length_lt
        (by rw [hsecond, List.length_drop, List.length_drop]; omega) other, hsecond, hdrop'',
      takeWhile_append_of_length_lt (by rw [hlast, List.length_drop, List.length_drop]; omega)
        other, hlast]
    rw [List.drop_append_of_le_length (by simp only [List.length_drop]; omega)] at hclosing ⊢
    cases hleft : ((source.drop (d :: word).length).drop (gap.length + second.length)).drop
        last.length with
    | nil =>
      have hempty := congrArg List.length hleft
      simp only [List.length_drop, List.length_nil] at hempty
      omega
    | cons closing left =>
      rw [hleft] at hclosing
      obtain ⟨rfl, -⟩ := List.cons.inj hclosing
      rfl

/-! ## Tokens -/

theorem blockLength_cons (c : Char) (source : List Char) :
    blockLength (c :: source) =
      if ['<', ':', ':'] <+: c :: source then 3 else blockLength source + 1 := by
  rw [blockLength.eq_def]
  split
  case h_1 heq => exact nomatch heq
  case h_2 rest heq =>
    rw [heq, if_pos]
    exact List.prefix_append ['<', ':', ':'] rest
  case h_3 d rest hmark heq =>
    obtain ⟨rfl, rfl⟩ := List.cons.inj heq
    rw [if_neg]
    rintro ⟨rest, hrest⟩
    obtain ⟨rfl, rfl⟩ := List.cons.inj hrest
    exact hmark rest rfl rfl

theorem blockLength_append (h : blockLength (source ++ tail) ≤ source.length) :
    blockLength (source ++ tail) = blockLength source := by
  induction source with
  | nil => exact Nat.le_zero.1 h
  | cons c source ih =>
    rw [List.cons_append, blockLength_cons] at h ⊢
    rw [blockLength_cons]
    split at h
    case isTrue hmark =>
      rw [if_pos hmark, if_pos]
      have hlength : ['<', ':', ':'].length ≤ (c :: source).length := h
      exact (prefix_append_iff hlength).1 hmark
    case isFalse hmark =>
      rw [if_neg hmark, if_neg, ih (Nat.le_of_succ_le_succ h)]
      intro hcut
      exact hmark (hcut.trans (List.prefix_append (c :: source) tail))

namespace Scan

variable {p : Position} {front : List Char} {scan : Scan}

theorem ofLess_append (h : front ≠ []) (hscan : ofLess p front h (source ++ tail) = .ok scan)
    (hlength : scan.length ≤ front.length + source.length) :
    ofLess p front h source = .ok scan := by
  unfold ofLess at hscan ⊢
  cases hwords : Marker.ofChars? (source ++ tail) with
  | none =>
    rw [hwords] at hscan
    cases hcut : Marker.ofChars? source with
    | none => exact hscan
    | some words =>
      have hempty : Marker.ofChars? (source ++ []) = some words := by
        rw [List.append_nil]
        exact hcut
      have hfull := Marker.ofChars?_append hempty (Marker.length_le_of_ofChars? hcut) tail
      rw [hwords] at hfull
      exact nomatch hfull
  | some words =>
    rw [hwords] at hscan
    dsimp only at hscan
    split at hscan
    case h_2 => exact nomatch hscan
    case h_1 word hword =>
      cases hscan
      have hwithin : words.length ≤ source.length := Nat.le_of_add_le_add_left hlength
      have hcut := Marker.ofChars?_append hwords hwithin []
      rw [List.append_nil] at hcut
      rw [hcut]
      dsimp only
      rw [hword]

theorem length_le_of_ofLexeme {lexeme : Lexeme} (h : front ≠ [])
    (hscan : ofLexeme p lexeme front h source = .ok scan) : front.length ≤ scan.length := by
  have hextend (kind : TokenKind) (more : Nat) : front.length ≤ (extend kind front h more).length :=
    Nat.le_add_right _ _
  unfold ofLexeme ofLess at hscan
  repeat' split at hscan
  all_goals cases hscan
  all_goals exact hextend _ _

/-- What a token is depends only on its own characters and those in front of its end. -/
theorem ofLexeme_append {lexeme : Lexeme} (h : front ≠ [])
    (hscan : ofLexeme p lexeme front h (source ++ tail) = .ok scan)
    (hlength : scan.length ≤ front.length + source.length) :
    ofLexeme p lexeme front h source = .ok scan := by
  unfold ofLexeme at hscan ⊢
  split at hscan
  case h_2 => exact ofLess_append h hscan hlength
  case h_7 =>
    dsimp only at hscan ⊢
    split at hscan
    case h_1 => cases hscan
    case h_2 quote behind hquote =>
      cases hscan
      have hwithin := Nat.le_of_add_le_add_left hlength
      have hcontent := takeWhile_append_of_length_le (Nat.le_of_succ_le hwithin)
      have hbehind := dropWhile_append_of_length_le (Nat.le_of_succ_le hwithin)
      rw [hcontent] at hwithin ⊢
      -- The closing quote is the first character behind the content, so it is not cut off.
      cases hcut : source.dropWhile (fun c => decide (c ≠ '"')) with
      | nil =>
        have hall := List.takeWhile_append_dropWhile (p := fun c => decide (c ≠ '"')) (l := source)
        rw [hcut, List.append_nil] at hall
        rw [hall] at hwithin
        exact absurd hwithin (Nat.not_succ_le_self _)
      | cons _ _ => rfl
  case h_8 =>
    cases hscan
    rw [takeWhile_append_of_length_le (Nat.le_of_add_le_add_left hlength)]
  case h_9 =>
    cases hscan
    rw [blockLength_append (Nat.le_of_add_le_add_left hlength)]
  all_goals exact hscan

/-- A token that ends within `source` does not depend on what follows. -/
theorem ofChars_append {c : Char} (hscan : ofChars p c (source ++ tail) = .ok scan)
    (hlength : scan.length ≤ (c :: source).length) : ofChars p c source = .ok scan := by
  unfold ofChars at hscan ⊢
  split at hscan
  case h_2 => exact nomatch hscan
  case h_1 d front lexeme hfront =>
    have hwithin := Nat.le_trans (length_le_of_ofLexeme _ hscan) hlength
    have hcut : Lexeme.front? (c :: source) = some (d :: front, lexeme) :=
      Lexeme.front?_append hfront hwithin
    rw [hcut]
    dsimp only
    rw [List.drop_append_of_le_length (Nat.le_of_succ_le_succ hwithin)] at hscan
    apply ofLexeme_append _ hscan
    rw [List.length_drop]
    rw [List.length_cons] at hlength hwithin ⊢
    omega

theorem position_of_ofChars {c : Char} {cause : LexError}
    (h : ofChars p c source = .error cause) : cause.position = p := by
  unfold ofChars ofLexeme ofLess at h
  repeat' split at h
  all_goals cases h
  all_goals rfl

end Scan

theorem tokenizeFrom_blank {c : Char} (h : isBlank c) (p : Position) (source : List Char) :
    tokenizeFrom p (c :: source) = tokenizeFrom (p.next c) source := by
  rw [tokenizeFrom, if_pos h]

/-- A token in front of the rest. -/
theorem tokenizeFrom_cons {p : Position} {c : Char} {scan : Scan} (hblank : ¬ isBlank c)
    (hscan : Scan.ofChars p c source = .ok scan) :
    tokenizeFrom p (c :: source) =
      (tokenizeFrom (p.after ((c :: source).take scan.length))
        ((c :: source).drop scan.length)).map
          (⟨scan.kind, .ofList ((c :: source).take scan.length), p⟩ :: ·) := by
  rw [tokenizeFrom, if_neg hblank, hscan]
  dsimp only
  split <;> rename_i heq <;> rw [heq] <;> rfl

/-- A text that is not a sequence of tokens is one up to the position of the error. -/
theorem tokenizeFrom_error (p : Position) (source : List Char) {cause : LexError}
    (h : tokenizeFrom p source = .error cause) :
    ∃ front rest tokens, source = front ++ rest ∧ tokenizeFrom p front = .ok tokens ∧
      cause.position = p.after front := by
  fun_induction tokenizeFrom p source with
  | case1 p => exact nomatch h
  | case2 p c source hblank ih =>
    obtain ⟨front, rest, tokens, rfl, hfront, hposition⟩ := ih h
    refine ⟨c :: front, rest, tokens, rfl, ?_, hposition⟩
    rw [tokenizeFrom_blank hblank, hfront]
  | case3 p c source hblank cause' hscan =>
    obtain rfl := Except.error.inj h
    refine ⟨[], c :: source, _, rfl, by rw [tokenizeFrom], ?_⟩
    exact Scan.position_of_ofChars hscan
  | case4 p c source hblank scan hscan text cause' hrest ih =>
    obtain rfl := Except.error.inj h
    obtain ⟨front, rest, tokens, hsplit, hfront, hposition⟩ := ih hrest
    have hlength : scan.length ≤ (c :: source).length := by
      refine Nat.le_of_not_le fun hlong => ?_
      rw [List.drop_eq_nil_of_le hlong, tokenizeFrom] at hrest
      exact nomatch hrest
    obtain ⟨n, hn⟩ := Nat.exists_eq_add_one.2 scan.pos
    dsimp only [text] at hfront hposition
    rw [hn, List.take_succ_cons] at hfront hposition
    rw [hn] at hlength hsplit
    have htext : (source.take n).length = n :=
      List.length_take_of_le (Nat.le_of_succ_le_succ hlength)
    have hsource : source = source.take n ++ front ++ rest := by
      rw [List.append_assoc, ← show source.drop n = front ++ rest from hsplit,
        List.take_append_drop]
    have hcut : Scan.ofChars p c (source.take n ++ front) = .ok scan := by
      rw [hsource] at hscan
      apply Scan.ofChars_append hscan
      rw [hn, List.length_cons, List.length_append, htext]
      omega
    have hbehind : tokenizeFrom (p.after ((c :: (source.take n ++ front)).take scan.length))
        ((c :: (source.take n ++ front)).drop scan.length) = .ok tokens := by
      rw [hn, List.take_succ_cons, List.drop_succ_cons, List.take_left' htext,
        List.drop_left' htext]
      exact hfront
    refine ⟨c :: (source.take n ++ front), rest, _, congrArg (c :: ·) hsource,
      (tokenizeFrom_cons hblank hcut).trans (by rw [hbehind]; rfl), ?_⟩
    rw [hposition, ← Position.after_append]
    rfl
  | case5 p c source hblank scan hscan text tokens hrest ih => exact nomatch h

end Arrow
