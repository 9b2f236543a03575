import Arrow.Proofs.Token.Extent
import Arrow.Proofs.Token.Lossless

/-!
# Where tokens begin

`tokenize` goes through a source text from its front, over blanks and from token to token. `Splits`
lists the places that it comes to. Each token that it returns is read at such a place
(`tokenize_readsToken`), and so it is with each error (`tokenize_fails`).
-/

namespace Arrow

/-- Every text behind another one has a position of its own. -/
theorem Position.eq_nil_of_ofPrefix_append {before text : List Char}
    (h : ofPrefix (before ++ text) = ofPrefix before) : text = [] := by
  unfold ofPrefix at h
  obtain ⟨hline, hcolumn⟩ := Position.mk.inj h
  have hbreaks : ∀ c ∈ text.reverse, decide (c ≠ '\n') := by
    rw [List.count_append] at hline
    have hbreak : '\n' ∉ text := List.count_eq_zero.1 (by omega)
    intro c hc
    exact decide_eq_true (ne_of_mem_of_not_mem (List.mem_reverse.1 hc) hbreak)
  rw [List.reverse_append, List.takeWhile_append_of_pos hbreaks, List.length_append,
    List.length_reverse] at hcolumn
  exact List.length_eq_zero_iff.1 (by omega)

/-- `token` is read at the front of `rest`, which stands behind `before`, and `later` is left. -/
inductive ReadsToken (before : List Char) : (rest : List Char) → (token : Token) → List Char → Prop
  | mk {c : Char} {rest : List Char} {scan : Scan} (hblank : ¬ isBlank c)
    (hscan : Scan.ofChars (.ofPrefix before) c rest = .ok scan) :
    ReadsToken before (c :: rest)
      ⟨scan.kind, .ofList ((c :: rest).take scan.length), .ofPrefix before⟩
      ((c :: rest).drop scan.length)

/-- Having split the part `before` of `source` into `tokens`, `tokenize` comes to `rest`. -/
inductive Splits (source : String) : (tokens : List Token) → (before rest : List Char) → Prop
  | start : Splits source [] [] source.toList
  | blank {tokens : List Token} {before rest : List Char} {c : Char} (hblank : isBlank c)
    (h : Splits source tokens before (c :: rest)) : Splits source tokens (before ++ [c]) rest
  | token {tokens : List Token} {before rest later : List Char} {token : Token}
    (hread : ReadsToken before rest token later) (h : Splits source tokens before rest) :
    Splits source (tokens ++ [token]) (before ++ token.text.toList) later

variable {source : String} {before rest later : List Char} {token : Token} {tokens : List Token}

namespace ReadsToken

theorem eq_append (h : ReadsToken before rest token later) : rest = token.text.toList ++ later := by
  cases h
  rw [String.toList_ofList, List.take_append_drop]

theorem text_ne_nil (h : ReadsToken before rest token later) : token.text.toList ≠ [] := by
  cases h with | @mk c rest scan hblank hscan =>
  rw [String.toList_ofList, Ne, List.take_eq_nil_iff, not_or]
  exact ⟨Nat.ne_of_gt scan.pos, List.cons_ne_nil c rest⟩

theorem length_lt (h : ReadsToken before rest token later) : later.length < rest.length := by
  have htext := List.length_pos_iff.2 h.text_ne_nil
  rw [h.eq_append, List.length_append]
  omega

/-- What is read is put in front of the tokens of the rest. -/
theorem tokenizeFrom_eq (h : ReadsToken before rest token later) :
    tokenizeFrom (.ofPrefix before) rest =
      (tokenizeFrom (.ofPrefix (before ++ token.text.toList)) later).map (token :: ·) := by
  cases h with | mk hblank hscan =>
  rw [tokenizeFrom_cons hblank hscan, Position.after_ofPrefix, String.toList_ofList]

end ReadsToken

namespace Splits

theorem eq_append (h : Splits source tokens before rest) : source.toList = before ++ rest := by
  induction h with
  | start => rfl
  | blank hblank h ih => rw [ih, List.append_assoc, List.singleton_append]
  | token hread h ih => rw [ih, hread.eq_append, List.append_assoc]

/-- What is still to be done at a place. -/
theorem tokenize_eq (h : Splits source tokens before rest) :
    tokenize source = (tokenizeFrom (.ofPrefix before) rest).map (tokens ++ ·) := by
  induction h with
  | start =>
    show tokenize source = (tokenize source).map ([] ++ ·)
    cases tokenize source <;> rfl
  | blank hblank h ih => rw [ih, tokenizeFrom_blank hblank, Position.next_ofPrefix]
  | @token tokens before rest later token hread h ih =>
    rw [ih, hread.tokenizeFrom_eq]
    cases tokenizeFrom (.ofPrefix (before ++ token.text.toList)) later with
    | error cause => rfl
    | ok others => exact congrArg Except.ok (List.append_cons tokens token others)

/-- Where no token can be read, the whole text cannot be split. -/
theorem tokenize_error {c : Char} {cause : LexError} (h : Splits source tokens before (c :: rest))
    (hblank : ¬ isBlank c) (hscan : Scan.ofChars (.ofPrefix before) c rest = .error cause) :
    tokenize source = .error cause := by
  rw [h.tokenize_eq, tokenizeFrom, if_neg hblank, hscan]
  rfl

/-- The error with the position of a place is the one of that place. -/
theorem tokenize_error_iff {c : Char} {cause : LexError}
    (h : Splits source tokens before (c :: rest)) (hblank : ¬ isBlank c)
    (hposition : cause.position = .ofPrefix before) :
    tokenize source = .error cause ↔ Scan.ofChars (.ofPrefix before) c rest = .error cause := by
  refine ⟨fun herror => ?_, h.tokenize_error hblank⟩
  cases hscan : Scan.ofChars (.ofPrefix before) c rest with
  | error other =>
    rw [h.tokenize_error hblank hscan] at herror
    exact congrArg Except.error (Except.error.inj herror)
  | ok scan =>
    -- An error behind the token has a later position.
    have hread := ReadsToken.mk hblank hscan
    have hbehind := (h.token hread).tokenize_eq
    rw [herror] at hbehind
    cases hlater : tokenizeFrom (.ofPrefix (before ++ _)) ((c :: rest).drop scan.length) with
    | ok others =>
      rw [hlater] at hbehind
      exact nomatch hbehind
    | error other =>
      rw [hlater] at hbehind
      obtain rfl := Except.error.inj hbehind
      obtain ⟨front, _, _, -, -, hother⟩ := tokenizeFrom_error _ _ hlater
      rw [hposition, Position.after_ofPrefix, List.append_assoc] at hother
      have hnil := Position.eq_nil_of_ofPrefix_append hother.symm
      exact absurd (List.append_eq_nil_iff.1 hnil).1 hread.text_ne_nil

/-- Each token so far has been read at a place. -/
theorem readsToken_of_mem (h : Splits source tokens before rest) (hmem : token ∈ tokens) :
    ∃ tokens before rest later, Splits source tokens before rest ∧
      ReadsToken before rest token later := by
  induction h with
  | start => exact absurd hmem List.not_mem_nil
  | blank hblank h ih => exact ih hmem
  | token hread h ih =>
    rcases List.mem_append.1 hmem with hmem | hmem
    · exact ih hmem
    · obtain rfl := List.mem_singleton.1 hmem
      exact ⟨_, _, _, _, h, hread⟩

/-- From every place on, the splitting ends behind the whole text or where no token can be read. -/
theorem tokenize_end (h : Splits source tokens before rest) :
    match tokenize source with
    | .ok all => ∃ tokens before, all = tokens ++ [⟨.endOfInput, "", .ofPrefix before⟩] ∧
        Splits source tokens before []
    | .error cause => ∃ tokens before c rest, Splits source tokens before (c :: rest) ∧
        ¬ isBlank c ∧ Scan.ofChars (.ofPrefix before) c rest = .error cause := by
  induction hlength : rest.length using Nat.strongRecOn generalizing tokens before rest with
  | ind length ih =>
    subst hlength
    cases rest with
    | nil =>
      rw [h.tokenize_eq, tokenizeFrom]
      exact ⟨tokens, before, rfl, h⟩
    | cons c rest =>
      by_cases hblank : isBlank c
      · exact ih rest.length (Nat.lt_succ_self _) (h.blank hblank) rfl
      · cases hscan : Scan.ofChars (.ofPrefix before) c rest with
        | error cause =>
          rw [h.tokenize_error hblank hscan]
          exact ⟨tokens, before, c, rest, h, hblank, hscan⟩
        | ok scan =>
          have hread := ReadsToken.mk hblank hscan
          exact ih _ hread.length_lt (h.token hread) rfl

end Splits

/-- Each token but the last is read at a place that `tokenize` comes to. -/
theorem tokenize_readsToken (h : tokenize source = .ok tokens) (hmem : token ∈ tokens)
    (hkind : token.kind ≠ .endOfInput) :
    ∃ tokens before rest later, Splits source tokens before rest ∧
      ReadsToken before rest token later := by
  have hend := (@Splits.start source).tokenize_end
  rw [h] at hend
  obtain ⟨others, before, rfl, hsplits⟩ := hend
  rcases List.mem_append.1 hmem with hmem | hmem
  · exact hsplits.readsToken_of_mem hmem
  · rw [List.mem_singleton.1 hmem] at hkind
    exact absurd rfl hkind

/-- Each error is the one of a place that `tokenize` comes to. -/
theorem tokenize_fails {cause : LexError} (h : tokenize source = .error cause) :
    ∃ tokens before c rest, Splits source tokens before (c :: rest) ∧ ¬ isBlank c ∧
      Scan.ofChars (.ofPrefix before) c rest = .error cause := by
  have hend := (@Splits.start source).tokenize_end
  rw [h] at hend
  exact hend

end Arrow
