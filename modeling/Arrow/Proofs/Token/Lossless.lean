import Arrow.Proofs.Token.Truncation

/-!
# Tokens lose nothing but blanks

The tokens of a source text are its pieces in order, with blanks alone between them, and the
position of each is counted off the text in front of it (`Lossless`). This holds of every text that
is split into tokens, and of the part of any other that lies before the error.
-/

namespace Arrow

/-! ## Positions -/

namespace Position

/--
The position behind the text `before`: the line counts its line breaks, the column the characters
behind the last of these.
-/
def ofPrefix (before : List Char) : Position :=
  ⟨1 + before.count '\n', 1 + (before.reverse.takeWhile (· ≠ '\n')).length⟩

theorem next_ofPrefix (before : List Char) (c : Char) :
    (ofPrefix before).next c = ofPrefix (before ++ [c]) := by
  unfold next ofPrefix
  rw [List.count_append, List.reverse_append]
  split
  case isTrue hbreak =>
    subst hbreak
    simp
    omega
  case isFalse hother => simp [hother, Nat.add_comm]

theorem after_ofPrefix (before text : List Char) :
    (ofPrefix before).after text = ofPrefix (before ++ text) := by
  induction text generalizing before with
  | nil => rw [after_nil, List.append_nil]
  | cons c text ih => rw [after_cons, next_ofPrefix, ih, List.append_assoc, List.singleton_append]

theorem start_after (text : List Char) : start.after text = ofPrefix text :=
  after_ofPrefix [] text

end Position

/-! ## Lossless splitting -/

/--
The tokens are the pieces of `source`, which stands behind `before`, with blanks between them. The
last of them, and it alone, is the end of input.
-/
inductive Lossless : (before source : List Char) → List Token → Prop
  | last {before gap : List Char} (hgap : ∀ c ∈ gap, isBlank c) :
    Lossless before gap [⟨.endOfInput, "", .ofPrefix (before ++ gap)⟩]
  | piece {before gap source : List Char} {token : Token} {tokens : List Token}
    (hgap : ∀ c ∈ gap, isBlank c) (hkind : token.kind ≠ .endOfInput) (htext : token.text ≠ "")
    (hposition : token.position = .ofPrefix (before ++ gap))
    (hrest : Lossless (before ++ gap ++ token.text.toList) source tokens) :
    Lossless before (gap ++ token.text.toList ++ source) (token :: tokens)

namespace Lossless

variable {before source : List Char} {tokens : List Token}

theorem blank {c : Char} (hblank : isBlank c) (h : Lossless (before ++ [c]) source tokens) :
    Lossless before (c :: source) tokens := by
  have hgap {gap : List Char} (h : ∀ d ∈ gap, isBlank d) : ∀ d ∈ c :: gap, isBlank d := by
    intro d hd
    rcases List.mem_cons.1 hd with rfl | hd
    · exact hblank
    · exact h d hd
  cases h with
  | last h =>
    rw [List.append_assoc, List.singleton_append]
    exact .last (hgap h)
  | piece h hkind htext hposition hrest =>
    rw [List.append_assoc before, List.singleton_append] at hposition hrest
    exact .piece (hgap h) hkind htext hposition hrest

/-- A token at the front of a text, without blanks before it. -/
theorem token {kind : TokenKind} (hkind : kind ≠ .endOfInput) {text : List Char} (htext : text ≠ [])
    (h : Lossless (before ++ text) source tokens) :
    Lossless before (text ++ source) (⟨kind, .ofList text, .ofPrefix before⟩ :: tokens) := by
  have htext' : String.ofList text ≠ "" := by simpa using htext
  have hpiece := @piece before [] source ⟨kind, .ofList text, .ofPrefix before⟩ tokens
    (fun _ hc => nomatch hc) hkind htext'
  rw [List.append_nil, List.nil_append, String.toList_ofList] at hpiece
  exact hpiece rfl h

end Lossless

/-- A scan is never the end of input. -/
theorem Scan.kind_ne_of_ofChars {p : Position} {c : Char} {source : List Char} {scan : Scan}
    (h : ofChars p c source = .ok scan) : scan.kind ≠ .endOfInput := by
  unfold ofChars ofLexeme ofLess at h
  repeat' split at h
  all_goals cases h
  all_goals exact TokenKind.noConfusion

theorem tokenizeFrom_lossless (before source : List Char) {tokens : List Token}
    (h : tokenizeFrom (.ofPrefix before) source = .ok tokens) : Lossless before source tokens := by
  generalize hp : Position.ofPrefix before = p at h
  fun_induction tokenizeFrom p source generalizing before tokens with
  | case1 p =>
    subst hp
    obtain rfl := Except.ok.inj h
    have hlast := @Lossless.last before [] fun _ hc => absurd hc List.not_mem_nil
    rw [List.append_nil] at hlast
    exact hlast
  | case2 p c source hblank ih =>
    subst hp
    exact (ih (before ++ [c]) (Position.next_ofPrefix before c).symm h).blank hblank
  | case3 p c source hblank cause hscan => cases h
  | case4 p c source hblank scan hscan text cause' hrest ih => cases h
  | case5 p c source hblank scan hscan text tokens hrest ih =>
    subst hp
    obtain rfl := Except.ok.inj h
    have htokens := ih (before ++ text) (Position.after_ofPrefix before text).symm hrest
    have htext : text ≠ [] := by
      intro hnil
      rw [List.take_eq_nil_iff] at hnil
      exact hnil.elim (Nat.ne_of_gt scan.pos) (List.cons_ne_nil c source)
    have hpiece := Lossless.token (Scan.kind_ne_of_ofChars hscan) htext htokens
    rw [List.take_append_drop] at hpiece
    exact hpiece

/--
A text that is split into tokens is so without loss. Otherwise a part in front is, and the position
of the error is the one right behind that part.
-/
theorem tokenize_lossless (source : String) :
    match tokenize source with
    | .ok tokens => Lossless [] source.toList tokens
    | .error cause => ∃ front rest tokens, source = front ++ rest ∧ tokenize front = .ok tokens ∧
        Lossless [] front.toList tokens ∧ cause.position = .ofPrefix front.toList := by
  unfold tokenize
  cases htokens : tokenizeFrom .start source.toList with
  | ok tokens => exact tokenizeFrom_lossless [] source.toList htokens
  | error cause =>
    obtain ⟨front, rest, tokens, hsource, hfront, hposition⟩ := tokenizeFrom_error _ _ htokens
    refine ⟨.ofList front, .ofList rest, tokens, ?_, ?_, ?_, ?_⟩
    · rw [← String.ofList_append, ← hsource, String.ofList_toList]
    · rw [String.toList_ofList]
      exact hfront
    · rw [String.toList_ofList]
      exact tokenizeFrom_lossless [] front hfront
    · rw [String.toList_ofList, hposition, Position.start_after]

end Arrow
