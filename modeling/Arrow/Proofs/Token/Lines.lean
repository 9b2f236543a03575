import Arrow.Proofs.Token.Extent
import Arrow.Proofs.Token.Lossless
import Mathlib

/-!
# Lines of a source text

No token but a comment or a string reaches across a line break, and none is read differently for
what stands behind one. So a text that is split into tokens, or fails to be, does so whatever lines
follow it, and these are split as by themselves, only further down (`tokenize_append_line`). The
exceptions are a string and a block comment that have not ended.
-/

namespace Arrow

variable {source later : List Char}

/-! ## Runs of characters -/

section Runs

variable {test : Char → Bool}

theorem takeWhile_append_break (htest : test '\n' = false) :
    (source ++ '\n' :: later).takeWhile test = source.takeWhile test := by
  induction source with
  | nil => exact List.takeWhile_cons_of_neg (by rw [htest]; exact Bool.false_ne_true)
  | cons c source ih =>
    rw [List.cons_append, List.takeWhile_cons, List.takeWhile_cons, ih]

theorem dropWhile_append_break (htest : test '\n' = false) :
    (source ++ '\n' :: later).dropWhile test = source.dropWhile test ++ '\n' :: later := by
  induction source with
  | nil => exact List.dropWhile_cons_of_neg (by rw [htest]; exact Bool.false_ne_true)
  | cons c source ih =>
    rw [List.cons_append, List.dropWhile_cons, List.dropWhile_cons, ih]
    split <;> rfl

theorem prefix_append_break_iff {front : List Char} (hfront : '\n' ∉ front) :
    front <+: source ++ '\n' :: later ↔ front <+: source := by
  refine ⟨fun h => ?_, fun h => h.trans (List.prefix_append source _)⟩
  induction front generalizing source with
  | nil => exact List.nil_prefix
  | cons c front ih =>
    rw [List.mem_cons, not_or] at hfront
    cases source with
    | nil => exact absurd (List.cons_prefix_cons.1 h).1.symm hfront.1
    | cons d source =>
      obtain ⟨rfl, hrest⟩ := List.cons_prefix_cons.1 h
      exact List.cons_prefix_cons.2 ⟨rfl, ih hfront.2 hrest⟩

theorem takeWhile_append_of_dropWhile_ne_nil (h : source.dropWhile test ≠ []) (tail : List Char) :
    (source ++ tail).takeWhile test = source.takeWhile test := by
  rw [List.takeWhile_append, if_neg (Nat.ne_of_lt (length_takeWhile_lt h))]

end Runs

/-! ## Beginnings of tokens -/

namespace Lexeme

theorem nameFront_append_break : nameFront (source ++ '\n' :: later) = nameFront source := by
  unfold nameFront
  rw [takeWhile_append_break rfl]
  cases source <;> rfl

theorem fractionFront_append_break :
    fractionFront (source ++ '\n' :: later) = fractionFront source := by
  cases source with
  | nil => rfl
  | cons c source =>
    by_cases hpoint : c = '.'
    · subst hpoint
      exact takeWhile_append_break rfl
    · rw [List.cons_append, fractionFront_cons_of_ne hpoint, fractionFront_cons_of_ne hpoint]

theorem numberFront_append_break :
    numberFront (source ++ '\n' :: later) = numberFront source := by
  unfold numberFront
  rw [takeWhile_append_break rfl, dropWhile_append_break rfl, fractionFront_append_break]

/-- No spelling holds a line break. -/
theorem break_notMem_of_mem_spellings : ∀ entry ∈ spellings, '\n' ∉ entry.1 := by
  decide

theorem fronts_append_break : fronts (source ++ '\n' :: later) = fronts source := by
  unfold fronts
  rw [nameFront_append_break, numberFront_append_break]
  congr 1
  refine List.filter_congr fun entry hentry => ?_
  rw [Bool.eq_iff_iff, List.isPrefixOf_iff_prefix, List.isPrefixOf_iff_prefix]
  exact prefix_append_break_iff (break_notMem_of_mem_spellings entry hentry)

theorem front?_append_break : front? (source ++ '\n' :: later) = front? source := by
  unfold front?
  rw [fronts_append_break]

theorem eq_of_blockComment_mem_fronts {front : List Char}
    (h : (front, blockComment) ∈ fronts source) : front = [':', ':', '>'] := by
  have hspelling : ∀ entry ∈ spellings, entry.2 = blockComment → entry.1 = [':', ':', '>'] := by
    decide
  unfold fronts at h
  rcases List.mem_append.1 h with h | h
  · exact hspelling _ (List.mem_filter.1 h).1 rfl
  · simp at h

end Lexeme

/-! ## Markers -/

theorem Marker.ofChars?_append_break : ofChars? (source ++ '\n' :: later) = ofChars? source := by
  have hname (source : List Char) : (Lexeme.nameFront source).length ≤ source.length :=
    (Lexeme.isPrefix_nameFront source).length_le
  have hgap (source : List Char) : (source.takeWhile isGap).length ≤ source.length :=
    (List.takeWhile_prefix isGap).length_le
  unfold ofChars?
  dsimp only
  rw [Lexeme.nameFront_append_break, List.drop_append_of_le_length (hname source)]
  generalize source.drop (Lexeme.nameFront source).length = rest
  rw [takeWhile_append_break rfl, List.drop_append_of_le_length (hgap rest),
    Lexeme.nameFront_append_break]
  have hsecond := hname (rest.drop (rest.takeWhile isGap).length)
  have hrest := hgap rest
  rw [List.length_drop] at hsecond
  rw [List.drop_append_of_le_length (by omega), takeWhile_append_break rfl,
    List.drop_append_of_le_length (hgap _)]
  generalize (rest.drop _).drop _ = behind
  cases behind with
  | nil => cases Lexeme.nameFront source <;> rfl
  | cons c behind =>
    cases Lexeme.nameFront source with
    | nil => rfl
    | cons d name =>
      by_cases hclosing : c = '>'
      · subst hclosing
        rfl
      · simp [hclosing]

/-! ## Tokens -/

theorem blockLength_append_of_closed (h : ['<', ':', ':'] <:+: source) (tail : List Char) :
    blockLength (source ++ tail) = blockLength source := by
  induction source with
  | nil => exact absurd (List.infix_nil.1 h) (List.cons_ne_nil _ _)
  | cons c source ih =>
    have hlength := h.length_le
    rw [List.cons_append, blockLength_cons, blockLength_cons, ← List.cons_append]
    simp only [prefix_append_iff hlength]
    split
    case isTrue => rfl
    case isFalse hmark => rw [ih ((List.infix_cons_iff.1 h).resolve_left hmark)]

theorem blockLength_of_open (h : ¬ ['<', ':', ':'] <:+: source) :
    blockLength source = source.length := by
  induction source with
  | nil => rfl
  | cons c source ih =>
    rw [List.infix_cons_iff, not_or] at h
    rw [blockLength_cons, if_neg h.1, ih h.2, List.length_cons]

/-- A block comment without its closing mark. -/
def Token.IsOpenComment (token : Token) : Prop :=
  token.kind = .comment ∧ [':', ':', '>'] <+: token.text.toList ∧
    ¬ ['<', ':', ':'] <:+: token.text.toList.drop 3

instance (token : Token) : Decidable token.IsOpenComment :=
  inferInstanceAs (Decidable (_ ∧ _ ∧ ¬ _))

namespace Scan

variable {p : Position} {front : List Char} {lexeme : Lexeme} {c : Char} {scan : Scan}

theorem ofLess_append_break (h : front ≠ []) :
    ofLess p front h (source ++ '\n' :: later) = ofLess p front h source := by
  unfold ofLess
  rw [Marker.ofChars?_append_break]
  split
  case h_1 => rfl
  case h_2 words hwords =>
    rw [List.take_append_of_le_length (Marker.length_le_of_ofChars? hwords)]

theorem ofLexeme_append_break (h : front ≠ [])
    (hstring : ofLexeme p lexeme front h source ≠ .error (.unterminatedString p))
    (hcomment : lexeme = .blockComment → ['<', ':', ':'] <:+: source) :
    ofLexeme p lexeme front h (source ++ '\n' :: later) = ofLexeme p lexeme front h source := by
  cases lexeme with
  | operator op =>
    cases op with
    | less => exact ofLess_append_break h
    | _ => rfl
  | quote =>
    unfold ofLexeme at hstring ⊢
    dsimp only at hstring ⊢
    cases hquote : source.dropWhile (fun c => decide (c ≠ '"')) with
    | nil =>
      rw [hquote] at hstring
      exact absurd rfl hstring
    | cons quote behind =>
      have hne : source.dropWhile (fun c => decide (c ≠ '"')) ≠ [] := by
        rw [hquote]
        exact List.cons_ne_nil _ _
      rw [takeWhile_append_of_dropWhile_ne_nil hne, List.dropWhile_append, hquote]
      rfl
  | lineComment =>
    unfold ofLexeme
    dsimp only
    rw [takeWhile_append_break rfl]
  | blockComment =>
    unfold ofLexeme
    dsimp only
    rw [blockLength_append_of_closed (hcomment rfl)]
  | _ => rfl

/-- No scan depends on what stands behind a line break, except where something has not ended. -/
theorem ofChars_append_break (hstring : ofChars p c source ≠ .error (.unterminatedString p))
    (hopen : ∀ scan, ofChars p c source = .ok scan → scan.length = (c :: source).length →
      ¬ (⟨scan.kind, .ofList (c :: source), p⟩ : Token).IsOpenComment) :
    ofChars p c (source ++ '\n' :: later) = ofChars p c source := by
  unfold ofChars at hstring hopen ⊢
  rw [← List.cons_append, Lexeme.front?_append_break]
  cases hfront : Lexeme.front? (c :: source) with
  | none => rfl
  | some entry =>
    obtain ⟨_ | ⟨d, front⟩, lexeme⟩ := entry
    · rfl
    · rw [hfront] at hstring hopen
      dsimp only at hstring hopen ⊢
      have hmem := Lexeme.mem_fronts_of_front? hfront
      obtain ⟨behind, hbehind⟩ := Lexeme.prefix_of_mem_fronts hmem
      obtain ⟨rfl, hsource⟩ := List.cons.inj hbehind
      change front ++ behind = source at hsource
      have hdrop : source.drop front.length = behind := by
        rw [← hsource, List.drop_left]
      have hlength : front.length ≤ source.length := by
        rw [← hsource, List.length_append]
        exact Nat.le_add_right _ _
      rw [List.drop_append_of_le_length hlength]
      refine ofLexeme_append_break _ hstring fun hlexeme => ?_
      subst hlexeme
      rw [hdrop] at hopen ⊢
      refine Classical.byContradiction fun hinfix => ?_
      have hmark := Lexeme.eq_of_blockComment_mem_fronts hmem
      dsimp only at hbehind
      refine hopen _ rfl ?_ ⟨rfl, ?_, ?_⟩
      · show (d :: front).length + blockLength behind = _
        rw [blockLength_of_open hinfix, ← List.length_append, hbehind]
      · rw [String.toList_ofList, ← hbehind, hmark]
        exact List.prefix_append _ _
      · rw [String.toList_ofList, ← hbehind, hmark]
        exact hinfix

theorem ofChars_append_break_of_ok (hscan : ofChars p c source = .ok scan)
    (hopen : scan.length = (c :: source).length →
      ¬ (⟨scan.kind, .ofList (c :: source), p⟩ : Token).IsOpenComment) :
    ofChars p c (source ++ '\n' :: later) = .ok scan := by
  rw [← hscan]
  refine ofChars_append_break (by rw [hscan]; exact nofun) fun scan' hscan' => ?_
  obtain rfl := Except.ok.inj (hscan.symm.trans hscan')
  exact hopen

end Scan

/-! ## Splitting -/

variable {p q : Position} {tokens : List Token}

/-- A scan that a line break does not change leaves the line break behind. -/
theorem tokenizeFrom_cons_append_break {c : Char} {scan : Scan} (hblank : ¬ isBlank c)
    (hscan : Scan.ofChars p c source = .ok scan)
    (hbreak : Scan.ofChars p c (source ++ '\n' :: later) = .ok scan) :
    tokenizeFrom p (c :: source ++ '\n' :: later) =
      (tokenizeFrom (p.after ((c :: source).take scan.length))
        ((c :: source).drop scan.length ++ '\n' :: later)).map
          (⟨scan.kind, .ofList ((c :: source).take scan.length), p⟩ :: ·) := by
  have hlength := Scan.length_le_of_ofChars hscan
  rw [List.cons_append, tokenizeFrom_cons hblank hbreak, ← List.cons_append,
    List.take_append_of_le_length hlength, List.drop_append_of_le_length hlength]

theorem tokenizeFrom_append_break
    (h : tokenizeFrom p source = .ok (tokens ++ [⟨.endOfInput, "", q⟩]))
    (hopen : ∀ token ∈ tokens.getLast?, ¬ token.IsOpenComment) (later : List Char) :
    tokenizeFrom p (source ++ '\n' :: later) =
      (tokenizeFrom ((p.after source).next '\n') later).map (tokens ++ ·) := by
  fun_induction tokenizeFrom p source generalizing tokens with
  | case1 p =>
    obtain rfl : tokens = [] := by
      cases tokens with
      | nil => rfl
      | cons token tokens => exact absurd (Except.ok.inj h) (by simp)
    rw [List.nil_append, tokenizeFrom_blank rfl, Position.after_nil]
    cases tokenizeFrom (p.next '\n') later <;> rfl
  | case2 p c source hblank ih =>
    rw [List.cons_append, tokenizeFrom_blank hblank]
    exact ih h hopen
  | case3 p c source hblank cause hscan => cases h
  | case4 p c source hblank scan hscan text cause hrest => cases h
  | case5 p c source hblank scan hscan text others hrest =>
    rename_i ih
    cases tokens with
    | nil =>
      obtain ⟨htoken, -⟩ := List.cons.inj (Except.ok.inj h)
      exact absurd (congrArg Token.kind htoken) (Scan.kind_ne_of_ofChars hscan)
    | cons token tokens =>
      obtain ⟨rfl, rfl⟩ := List.cons.inj (Except.ok.inj h)
      have hbreak : Scan.ofChars p c (source ++ '\n' :: later) = .ok scan := by
        refine Scan.ofChars_append_break_of_ok hscan fun hlength => ?_
        -- The token takes all that is left, so it is the last one.
        rw [hlength, List.drop_length, tokenizeFrom] at hrest
        have htext : text = c :: source := List.take_of_length_le (Nat.le_of_eq hlength.symm)
        rw [← htext]
        cases tokens with
        | nil => exact hopen _ rfl
        | cons token tokens => exact absurd (Except.ok.inj hrest) (by simp)
      have hlast : ∀ token ∈ tokens.getLast?, ¬ token.IsOpenComment := by
        refine fun token hmem => hopen token ?_
        rw [List.getLast?_cons, Option.mem_def.1 hmem]
        rfl
      rw [tokenizeFrom_cons_append_break hblank hscan hbreak, ih hrest hlast,
        ← Position.after_append, List.take_append_drop]
      cases tokenizeFrom ((p.after (c :: source)).next '\n') later <;> rfl

theorem tokenizeFrom_append_break_error {cause : LexError}
    (h : tokenizeFrom p source = .error cause) (hstring : ∀ q, cause ≠ .unterminatedString q)
    (later : List Char) : tokenizeFrom p (source ++ '\n' :: later) = .error cause := by
  fun_induction tokenizeFrom p source with
  | case1 p => cases h
  | case2 p c source hblank ih =>
    rw [List.cons_append, tokenizeFrom_blank hblank]
    exact ih h
  | case3 p c source hblank cause' hscan =>
    obtain rfl := Except.error.inj h
    have hbreak : Scan.ofChars p c (source ++ '\n' :: later) = .error cause' := by
      rw [← hscan]
      refine Scan.ofChars_append_break ?_ fun scan hscan' => ?_
      · rw [hscan]
        exact fun heq => hstring p (Except.error.inj heq)
      · rw [hscan] at hscan'
        cases hscan'
    rw [List.cons_append, tokenizeFrom, if_neg hblank, hbreak]
  | case4 p c source hblank scan hscan text cause' hrest ih =>
    obtain rfl := Except.error.inj h
    have hbreak : Scan.ofChars p c (source ++ '\n' :: later) = .ok scan := by
      refine Scan.ofChars_append_break_of_ok hscan fun hlength => ?_
      rw [hlength, List.drop_length, tokenizeFrom] at hrest
      cases hrest
    rw [tokenizeFrom_cons_append_break hblank hscan hbreak, ih hrest]
    rfl
  | case5 p c source hblank scan hscan text others hrest ih => cases h

/-! ## Further down -/

/-- The position in the same column, a number of lines further down. -/
def Position.down (p : Position) (lines : Nat) : Position :=
  ⟨p.line + lines, p.column⟩

def Token.down (token : Token) (lines : Nat) : Token :=
  { token with position := token.position.down lines }

def LexError.down (lines : Nat) : LexError → LexError
  | unexpectedCharacter c p => unexpectedCharacter c (p.down lines)
  | unterminatedString p => unterminatedString (p.down lines)
  | invalidMarker text p => invalidMarker text (p.down lines)
  | numberTooLarge text p => numberTooLarge text (p.down lines)

section Down

variable {lines : Nat}

theorem Position.next_down (c : Char) : (p.down lines).next c = (p.next c).down lines := by
  unfold next
  split
  · exact congrArg (Position.mk · 1) (Nat.add_right_comm p.line lines 1)
  · rfl

theorem Position.after_down (text : List Char) :
    (p.down lines).after text = (p.after text).down lines := by
  induction text generalizing p with
  | nil => rfl
  | cons c text ih => rw [after_cons, after_cons, next_down, ih]

theorem Scan.ofLexeme_down {lexeme : Lexeme} {front : List Char} (h : front ≠ []) :
    ofLexeme (p.down lines) lexeme front h source =
      (ofLexeme p lexeme front h source).mapError (·.down lines) := by
  cases lexeme with
  | operator op =>
    cases op with
    | less =>
      unfold ofLexeme
      dsimp only
      unfold ofLess
      cases Marker.ofChars? source with
      | none => rfl
      | some words =>
        dsimp only
        cases Marker.keyword? (.ofList (front.tail ++ words.first)) (.ofList words.second) <;> rfl
    | _ => rfl
  | number =>
    unfold ofLexeme
    dsimp only
    cases Number.ofChars? front <;> rfl
  | quote =>
    unfold ofLexeme
    dsimp only
    cases source.dropWhile (fun c => decide (c ≠ '"')) <;> rfl
  | _ => rfl

theorem Scan.ofChars_down {c : Char} :
    ofChars (p.down lines) c source = (ofChars p c source).mapError (·.down lines) := by
  unfold ofChars
  cases Lexeme.front? (c :: source) with
  | none => rfl
  | some entry =>
    obtain ⟨_ | ⟨d, front⟩, lexeme⟩ := entry
    · rfl
    · exact ofLexeme_down _

theorem tokenizeFrom_down :
    tokenizeFrom (p.down lines) source =
      ((tokenizeFrom p source).map (List.map (·.down lines))).mapError (·.down lines) := by
  fun_induction tokenizeFrom p source with
  | case1 p => rw [tokenizeFrom]; rfl
  | case2 p c source hblank ih => rw [tokenizeFrom_blank hblank, Position.next_down, ih]
  | case3 p c source hblank cause hscan =>
    rw [tokenizeFrom, if_neg hblank, Scan.ofChars_down, hscan]
    rfl
  | case4 p c source hblank scan hscan text cause hrest ih =>
    have hdown : Scan.ofChars (p.down lines) c source = .ok scan := by
      rw [Scan.ofChars_down, hscan]
      rfl
    rw [tokenizeFrom_cons hblank hdown, Position.after_down, ih, hrest]
    rfl
  | case5 p c source hblank scan hscan text tokens hrest ih =>
    have hdown : Scan.ofChars (p.down lines) c source = .ok scan := by
      rw [Scan.ofChars_down, hscan]
      rfl
    rw [tokenizeFrom_cons hblank hdown, Position.after_down, ih, hrest]
    rfl

end Down

/--
A text splits line by line: behind a text that is split into tokens, and does not end in a block
comment that is open, the next lines are split as by themselves, only further down. Behind a text
that fails to be split, for another reason than a string that is open, they do not matter.
-/
theorem tokenize_append_line (first second : String) :
    (∀ tokens p, tokenize first = .ok (tokens ++ [⟨.endOfInput, "", p⟩]) →
      (∀ token ∈ tokens.getLast?, ¬ token.IsOpenComment) →
      let lines := 1 + first.toList.count '\n'
      tokenize (first ++ "\n" ++ second) =
        ((tokenize second).map fun others => tokens ++ others.map (·.down lines)).mapError
          (·.down lines)) ∧
    ∀ cause, tokenize first = .error cause → (∀ p, cause ≠ .unterminatedString p) →
      tokenize (first ++ "\n" ++ second) = .error cause := by
  have hlines : (first ++ "\n" ++ second).toList = first.toList ++ '\n' :: second.toList := by
    simp
  unfold tokenize
  rw [hlines]
  constructor
  · intro tokens p h hopen lines
    have hdown : (Position.start.after first.toList).next '\n' = Position.start.down lines := by
      rw [Position.start_after]
      exact congrArg (Position.mk · 1) (Nat.add_comm _ 1)
    rw [tokenizeFrom_append_break h hopen, hdown, tokenizeFrom_down]
    cases tokenizeFrom .start second.toList <;> rfl
  · exact fun cause h hstring => tokenizeFrom_append_break_error h hstring _

/-- A line that ends in a comment, with another one behind it, and a line that fails. -/
theorem tokenize_append_line_of_comment :
    let tokens : List Token := [⟨.identifier "x", "x", ⟨1, 1⟩⟩, ⟨.comment, ":: y", ⟨1, 3⟩⟩]
    let unexpected : LexError := .unexpectedCharacter '?' ⟨1, 3⟩
    tokenize "x :: y" = .ok (tokens ++ [⟨.endOfInput, "", ⟨1, 7⟩⟩]) ∧
      (∀ token ∈ tokens.getLast?, ¬ token.IsOpenComment) ∧
      tokenize ("x :: y" ++ "\n" ++ "z") =
        .ok (tokens ++ [⟨.identifier "z", "z", ⟨2, 1⟩⟩, ⟨.endOfInput, "", ⟨2, 2⟩⟩]) ∧
      tokenize "x ?" = .error unexpected ∧ (∀ p, unexpected ≠ .unterminatedString p) ∧
      tokenize ("x ?" ++ "\n" ++ "z") = .error unexpected := by
  intro tokens unexpected
  have hfirst : tokenize "x :: y" = .ok (tokens ++ [⟨.endOfInput, "", ⟨1, 7⟩⟩]) := by cbv
  have hopen : ∀ token ∈ tokens.getLast?, ¬ token.IsOpenComment := by decide
  have hsecond : tokenize "z" =
      .ok [⟨.identifier "z", "z", ⟨1, 1⟩⟩, ⟨.endOfInput, "", ⟨1, 2⟩⟩] := by cbv
  have herror : tokenize "x ?" = .error unexpected := by cbv
  have hother : ∀ p, unexpected ≠ .unterminatedString p := by simp [unexpected]
  have hlines := (tokenize_append_line "x :: y" "z").1 tokens ⟨1, 7⟩ hfirst hopen
  rw [hsecond] at hlines
  exact ⟨hfirst, hopen, hlines, herror, hother,
    (tokenize_append_line "x ?" "z").2 unexpected herror hother⟩

end Arrow
