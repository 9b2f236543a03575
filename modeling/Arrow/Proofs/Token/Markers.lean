import Arrow.Proofs.Token.LongestMatch

/-!
# Markers of declarations

A marker is a bracket, one or two words and a closing bracket (`Marker.WrittenAs`); what the words
mean is `Marker.Means`. `tokenize` reads such a text behind a less-than sign as a whole, and fails
when its words mean nothing (`tokenize_markers`). It does so behind both spellings of the sign, of
which `<<>` adds its own end to the first word.
-/

namespace Arrow

open Lexeme

namespace Marker

/-- `text` is `words` and a closing bracket: what stands behind the opening bracket of a marker. -/
inductive WrittenAs : (words : List String) → (text : List Char) → Prop
  | one {word last : List Char} (hword : IsName word) (hlast : ∀ c ∈ last, isGap c) :
    WrittenAs [.ofList word] (word ++ (last ++ ['>']))
  | two {first gap second last : List Char} (hfirst : IsName first) (hne : gap ≠ [])
    (hgap : ∀ c ∈ gap, isGap c) (hsecond : IsName second) (hlast : ∀ c ∈ last, isGap c) :
    WrittenAs [.ofList first, .ofList second] (first ++ (gap ++ (second ++ (last ++ ['>']))))

/-- The keyword that the words of a marker mean. -/
inductive Means : (words : List String) → Keyword → Prop
  | var : Means ["var"] (.var none)
  | const : Means ["const"] (.const none)
  | fn : Means ["fn"] (.fn none)
  | type {type : String} (h : type ∉ reserved) : Means [type] (.var type)
  | varType {type : String} (h : type ∉ reserved) : Means ["var", type] (.var type)
  | constType {type : String} (h : type ∉ reserved) : Means ["const", type] (.const type)
  | typeFn {type : String} (h : type ∉ reserved) : Means [type, "fn"] (.fn type)

/-! ## What the words mean -/

variable {first second : String} {word : Keyword}

theorem ne_of_notMem_reserved (h : first ∉ reserved) :
    first ≠ "var" ∧ first ≠ "const" ∧ first ≠ "fn" := by
  refine ⟨?_, ?_, ?_⟩ <;> rintro rfl <;> exact h (by decide)

theorem keyword?_eq_some_iff_of_one : keyword? first "" = some word ↔ Means [first] word := by
  unfold keyword?
  rw [if_pos rfl]
  constructor
  · intro h
    split at h
    case isTrue hvar =>
      subst hvar
      cases h
      exact .var
    split at h
    case isTrue hconst =>
      subst hconst
      cases h
      exact .const
    split at h
    case isTrue hfn =>
      subst hfn
      cases h
      exact .fn
    split at h
    case isTrue htype =>
      cases h
      exact .type (by simpa using htype)
    case isFalse => exact nomatch h
  · intro h
    cases h with
    | var | const | fn => rfl
    | type h =>
      obtain ⟨hvar, hconst, hfn⟩ := ne_of_notMem_reserved h
      rw [if_neg hvar, if_neg hconst, if_neg hfn, if_pos (by simpa using h)]

theorem keyword?_eq_some_iff_of_two (hsecond : second ≠ "") :
    keyword? first second = some word ↔ Means [first, second] word := by
  unfold keyword?
  rw [if_neg hsecond]
  simp only [Bool.and_eq_true, decide_eq_true_eq, Bool.not_eq_true', List.contains_eq_mem,
    decide_eq_false_iff_not]
  constructor
  · intro h
    split at h
    case isTrue hvar =>
      obtain ⟨rfl, htype⟩ := hvar
      cases h
      exact .varType htype
    split at h
    case isTrue hconst =>
      obtain ⟨rfl, htype⟩ := hconst
      cases h
      exact .constType htype
    split at h
    case isTrue hfn =>
      obtain ⟨rfl, htype⟩ := hfn
      cases h
      exact .typeFn htype
    case isFalse => exact nomatch h
  · intro h
    cases h with
    | varType h => rw [if_pos ⟨rfl, h⟩]
    | constType h => rw [if_neg (by simp), if_pos ⟨rfl, h⟩]
    | typeFn h =>
      obtain ⟨hvar, hconst, -⟩ := ne_of_notMem_reserved h
      rw [if_neg fun hboth => hvar hboth.1, if_neg fun hboth => hconst hboth.1, if_pos ⟨rfl, h⟩]

/-- The words of a marker behind the first one. -/
def others (marker : Marker) : List String :=
  if marker.second = [] then [] else [.ofList marker.second]

theorem keyword?_eq_some_iff {marker : Marker} :
    keyword? first (.ofList marker.second) = some word ↔ Means (first :: marker.others) word := by
  unfold others
  split
  case isTrue hnil =>
    rw [hnil]
    exact keyword?_eq_some_iff_of_one
  case isFalse hsecond => exact keyword?_eq_some_iff_of_two (by simpa using hsecond)

/-! ## Reading the words -/

variable {source : List Char} {words : List String} {text : List Char} {marker : Marker}

/-- The parts that `ofChars?` cuts a text into. -/
structure Parts (source first gap second last behind : List Char) : Prop where
  eq_append : source = first ++ (gap ++ (second ++ (last ++ behind)))
  first_eq : nameFront source = first
  gap_eq : (gap ++ (second ++ (last ++ behind))).takeWhile isGap = gap
  second_eq : nameFront (second ++ (last ++ behind)) = second
  last_eq : (last ++ behind).takeWhile isGap = last

theorem exists_parts (source : List Char) :
    ∃ first gap second last behind, Parts source first gap second last behind := by
  obtain ⟨rest, hrest⟩ := isPrefix_nameFront source
  have hgap := List.takeWhile_append_dropWhile (p := isGap) (l := rest)
  obtain ⟨behind, hbehind⟩ := isPrefix_nameFront (rest.dropWhile isGap)
  have hlast := List.takeWhile_append_dropWhile (p := isGap) (l := behind)
  refine ⟨nameFront source, rest.takeWhile isGap, nameFront (rest.dropWhile isGap),
    behind.takeWhile isGap, behind.dropWhile isGap, ?_, rfl, ?_, ?_, ?_⟩
  · rw [hlast, hbehind, hgap, hrest]
  · rw [hlast, hbehind, hgap]
  · rw [hlast, hbehind]
  · rw [hlast]

theorem Parts.ofChars?_eq {first gap second last behind : List Char}
    (h : Parts source first gap second last behind) :
    ofChars? source =
      if first ≠ [] ∧ behind.head? = some '>' then
        some ⟨first, second, first.length + gap.length + second.length + last.length + 1⟩
      else none := by
  obtain ⟨heq, hfirst, hgap, hsecond, hlast⟩ := h
  unfold ofChars?
  dsimp only
  rw [hfirst, heq, List.drop_left, hgap, List.drop_left, hsecond, ← List.drop_drop, List.drop_left,
    List.drop_left, hlast, List.drop_left]
  split
  case h_1 => rw [if_pos ⟨List.cons_ne_nil _ _, rfl⟩]
  case h_2 hnone =>
    rw [if_neg]
    rintro ⟨hnil, hhead⟩
    obtain ⟨c, text, rfl⟩ := List.exists_cons_of_ne_nil hnil
    obtain ⟨later, rfl⟩ := List.head?_eq_some_iff.1 hhead
    exact hnone c text later rfl rfl

theorem isGap_of_takeWhile_eq {gap : List Char} (h : source.takeWhile isGap = gap) :
    ∀ c ∈ gap, isGap c := by
  subst h
  exact fun c hc => List.mem_takeWhile_imp hc

theorem not_isNamePart_of_isGap {c : Char} (h : isGap c) : ¬ isNamePart c := by
  unfold isGap at h
  rcases (by simpa using h : c = ' ' ∨ c = '\t') with rfl | rfl <;> decide

/-- Two words have a gap between them. -/
theorem Parts.gap_ne_nil {first gap second last behind : List Char}
    (h : Parts source first gap second last behind) (hfirst : first ≠ []) (hsecond : second ≠ []) :
    gap ≠ [] := by
  rintro rfl
  have hname : IsName first := h.first_eq ▸ isName_nameFront (h.first_eq.symm ▸ hfirst)
  have hname' : IsName second := h.second_eq ▸ isName_nameFront (h.second_eq.symm ▸ hsecond)
  have hboth : IsName (first ++ second) := by
    have hparts := hname'.isNamePart
    cases hname with | mk hstart hparts' =>
    exact .mk hstart fun c hc => (List.mem_append.1 hc).elim (hparts' c) (hparts c)
  have hopens : first ++ second <+: source := by
    rw [h.eq_append, List.nil_append, List.prefix_append_right_inj]
    exact List.prefix_append _ _
  have hle := (hboth.prefix_nameFront hopens).length_le
  rw [h.first_eq, List.length_append] at hle
  exact hsecond (List.length_eq_zero_iff.1 (by omega))

/-- A marker that is read is spelt at the front of the text. -/
theorem writtenAs_of_ofChars? (h : ofChars? source = some marker) :
    ∃ text, WrittenAs (.ofList marker.first :: marker.others) text ∧ text <+: source ∧
      marker.length = text.length := by
  obtain ⟨first, gap, second, last, behind, hparts⟩ := exists_parts source
  rw [hparts.ofChars?_eq] at h
  split at h
  case isFalse => exact nomatch h
  case isTrue hboth =>
    obtain rfl := Option.some.inj h
    obtain ⟨hfirst, hhead⟩ := hboth
    obtain ⟨later, rfl⟩ := List.head?_eq_some_iff.1 hhead
    have hname : IsName first := hparts.first_eq ▸ isName_nameFront (hparts.first_eq.symm ▸ hfirst)
    have hgap := isGap_of_takeWhile_eq hparts.gap_eq
    have hlast := isGap_of_takeWhile_eq hparts.last_eq
    refine ⟨first ++ (gap ++ (second ++ (last ++ ['>']))), ?_, ⟨later, ?_⟩, ?_⟩
    · unfold others
      split
      case isTrue hnil =>
        dsimp only at hnil
        subst hnil
        rw [List.nil_append, ← List.append_assoc gap]
        exact .one hname fun c hc => (List.mem_append.1 hc).elim (hgap c) (hlast c)
      case isFalse hsecond =>
        have hname' : IsName second :=
          hparts.second_eq ▸ isName_nameFront (hparts.second_eq.symm ▸ hsecond)
        exact .two hname (hparts.gap_ne_nil hfirst hsecond) hgap hname' hlast
    · rw [hparts.eq_append]
      simp
    · simp only [List.length_append, List.length_singleton]
      omega

/-- A name goes on until a character that cannot be in it. -/
theorem nameFront_append {behind : List Char} (h : IsName text)
    (hbehind : ∀ c ∈ behind.head?, ¬ isNamePart c) : nameFront (text ++ behind) = text := by
  obtain ⟨hstart, hparts⟩ := h
  rw [List.cons_append, nameFront_cons hstart, takeWhile_append_eq_left hparts hbehind]

/-- Behind a word there is a gap or the closing bracket. -/
theorem nameFront_append_gap {gap behind : List Char} (h : IsName text) (hgap : ∀ c ∈ gap, isGap c)
    (hbehind : ∀ c ∈ behind.head?, ¬ isNamePart c) :
    nameFront (text ++ (gap ++ behind)) = text := by
  refine nameFront_append h ?_
  cases gap with
  | nil => exact hbehind
  | cons d gap =>
    intro c hc
    obtain rfl := Option.some.inj hc
    exact not_isNamePart_of_isGap (hgap d List.mem_cons_self)

/-- A marker that is spelt at the front of the text is read. -/
theorem ofChars?_of_writtenAs (h : WrittenAs words text) (later : List Char) :
    ∃ marker, ofChars? (text ++ later) = some marker ∧
      words = .ofList marker.first :: marker.others ∧ marker.length = text.length := by
  cases h with
  | @one word last hword hlast =>
    have hparts : Parts (word ++ (last ++ ['>']) ++ later) word last [] [] ('>' :: later) := by
      refine ⟨by simp, ?_, takeWhile_append_eq_left hlast (by simp; decide), rfl, rfl⟩
      rw [List.append_assoc, List.append_assoc]
      exact nameFront_append_gap hword hlast (by simp; decide)
    rw [hparts.ofChars?_eq]
    refine ⟨_, if_pos ⟨hword.ne_nil, rfl⟩, rfl, ?_⟩
    simp only [List.length_append, List.length_singleton, List.length_nil]
    omega
  | @two first gap second last hfirst hne hgap hsecond hlast =>
    have hword : nameFront (second ++ (last ++ '>' :: later)) = second :=
      nameFront_append_gap hsecond hlast (by simp; decide)
    have hbehind : ∀ c ∈ (second ++ (last ++ '>' :: later)).head?, ¬ isGap c := by
      cases hsecond with | mk hstart hparts =>
      intro c hc
      obtain rfl := Option.some.inj hc
      exact fun hgap => not_isNamePart_of_isGap hgap (isNamePart_of_isNameStart hstart)
    have hparts : Parts (first ++ (gap ++ (second ++ (last ++ ['>']))) ++ later) first gap second
        last ('>' :: later) := by
      refine ⟨by simp, ?_, takeWhile_append_eq_left hgap hbehind, hword,
        takeWhile_append_eq_left hlast (by simp; decide)⟩
      obtain ⟨c, gap, rfl⟩ := List.exists_cons_of_ne_nil hne
      rw [List.append_assoc]
      refine nameFront_append hfirst fun d hd => ?_
      obtain rfl := Option.some.inj hd
      exact not_isNamePart_of_isGap (hgap c List.mem_cons_self)
    rw [hparts.ofChars?_eq]
    refine ⟨_, if_pos ⟨hfirst.ne_nil, rfl⟩, ?_, ?_⟩
    · unfold others
      rw [if_neg hsecond.ne_nil]
    · simp only [List.length_append, List.length_singleton]
      omega

end Marker

/-! ## The opening bracket -/

namespace Lexeme

variable {front : List Char} {lexeme : Lexeme} {c : Char}

theorem any_isNameStart_of_mem_spellings : ∀ entry ∈ spellings, entry.1.head? = some '<' →
    entry.1.any isNameStart = false := by
  decide

/-- No lexeme that begins with a bracket goes on in a word. -/
theorem Matches.not_isNameStart {text : List Char} (h : Matches text lexeme)
    (hhead : text.head? = some '<') : ∀ d ∈ text, ¬ isNameStart d := by
  rcases h.fixed_or with hmem | ⟨-, hname⟩ | rfl
  · exact List.any_eq_false.1 (any_isNameStart_of_mem_spellings _ hmem hhead)
  · cases hname with | mk hstart hparts =>
    obtain rfl := Option.some.inj hhead
    exact absurd hstart (by decide)
  · obtain ⟨c, hc, hdigit⟩ := h.isDigit_head
    obtain rfl := Option.some.inj (hhead.symm.trans hc)
    exact absurd hdigit (by decide)

/-- A spelling that begins with a bracket is the longest match in front of a word. -/
theorem front?_append_of_isNameStart (hmem : (front, lexeme) ∈ spellings)
    (hhead : front.head? = some '<') (hstart : isNameStart c) (rest : List Char) :
    front? (front ++ c :: rest) = some (front, lexeme) := by
  refine front?_eq_some_iff.2
    ⟨List.prefix_append _ _, .fixed hmem, fun other lexeme' hmatch hother => ?_,
      fun lexeme' hmem' => eq_of_mem_spellings hmem' hmem⟩
  refine Nat.le_of_not_lt fun hlength => ?_
  have hword : front ++ [c] <+: other := by
    refine List.prefix_of_prefix_length_le ?_ hother (List.length_append.trans_le hlength)
    rw [List.prefix_append_right_inj]
    exact List.prefix_append [c] rest
  have hhead' : other.head? = some '<' := by
    obtain ⟨behind, rfl⟩ := hword
    rw [List.append_assoc, List.head?_append, hhead]
    rfl
  exact hmatch.not_isNameStart hhead' c (hword.subset (by simp)) hstart

end Lexeme

theorem Marker.WrittenAs.exists_cons {words : List String} {text : List Char}
    (h : WrittenAs words text) :
    ∃ c behind, text = c :: behind ∧ isNameStart c := by
  cases h with
  | one hword =>
    cases hword with | mk hstart => exact ⟨_, _, List.cons_append, hstart⟩
  | two hfirst =>
    cases hfirst with | mk hstart => exact ⟨_, _, List.cons_append, hstart⟩

namespace Scan

open Marker

variable {p : Position} {tail source text : List Char} {first : String} {others : List String}
  {word : Keyword} (h : '<' :: tail ≠ [])

theorem ofLess_of_means (hwritten : WrittenAs (first :: others) text)
    (hmeans : Means ((.ofList tail ++ first) :: others) word) (later : List Char) :
    ofLess p ('<' :: tail) h (text ++ later) =
      .ok (extend (.keyword word) ('<' :: tail) h text.length) := by
  obtain ⟨marker, hmarker, hwords, hlength⟩ := ofChars?_of_writtenAs hwritten later
  obtain ⟨rfl, rfl⟩ := List.cons.inj hwords
  rw [← String.ofList_append, ← keyword?_eq_some_iff] at hmeans
  unfold ofLess
  rw [hmarker, List.tail_cons]
  dsimp only
  rw [hmeans, hlength]

theorem ofLess_of_not_means (hwritten : WrittenAs (first :: others) text)
    (hmeans : ∀ word, ¬ Means ((.ofList tail ++ first) :: others) word) (later : List Char) :
    ofLess p ('<' :: tail) h (text ++ later) =
      .error (.invalidMarker (.ofList ('<' :: (tail ++ text))) p) := by
  obtain ⟨marker, hmarker, hwords, hlength⟩ := ofChars?_of_writtenAs hwritten later
  obtain ⟨rfl, rfl⟩ := List.cons.inj hwords
  have hnone : keyword? (.ofList (tail ++ marker.first)) (.ofList marker.second) = none := by
    refine Option.eq_none_iff_forall_not_mem.2 fun word hword => hmeans word ?_
    rw [← String.ofList_append]
    exact keyword?_eq_some_iff.1 hword
  unfold ofLess
  rw [hmarker, List.tail_cons]
  dsimp only
  rw [hnone, hlength, List.take_left, List.cons_append]

theorem ofLess_of_not_writtenAs
    (hwritten : ∀ words text, WrittenAs words text → ¬ text <+: source) :
    ofLess p ('<' :: tail) h source = .ok (extend (.operator .less) ('<' :: tail) h 0) := by
  unfold ofLess
  cases hmarker : Marker.ofChars? source with
  | none => rfl
  | some marker =>
    obtain ⟨text, htext, hopens, -⟩ := writtenAs_of_ofChars? hmarker
    exact absurd hopens (hwritten _ _ htext)

/-- In front of a word, a spelling of the less-than sign is the longest match. -/
theorem ofChars_of_less (hmem : ('<' :: tail, .operator .less) ∈ spellings) {c : Char}
    (hstart : isNameStart c) (rest : List Char) :
    ofChars p '<' (tail ++ c :: rest) = ofLess p ('<' :: tail) h (c :: rest) := by
  have hfront := front?_append_of_isNameStart hmem rfl hstart rest
  rw [List.cons_append] at hfront
  rw [ofChars_of_front? h hfront, ← List.cons_append, List.drop_left]
  rfl

end Scan

/-! ## Reading markers -/

open Marker

variable {before rest later tail text : List Char} {first : String} {others : List String}
  {token : Token} {word : Keyword}

/-- The token that a scan of known length makes. -/
theorem ReadsToken.of_ofChars {c : Char} {scan : Scan} (hblank : ¬ isBlank c)
    (hscan : Scan.ofChars (.ofPrefix before) c rest = .ok scan)
    (htext : c :: rest = text ++ later) (hlength : scan.length = text.length) :
    ReadsToken before (c :: rest) ⟨scan.kind, .ofList text, .ofPrefix before⟩ later := by
  have hread := ReadsToken.mk hblank hscan
  rwa [hlength, htext, List.take_left, List.drop_left, ← htext] at hread

theorem readsToken_of_means (hmem : ('<' :: tail, .operator .less) ∈ spellings)
    (hwritten : WrittenAs (first :: others) text)
    (hmeans : Means ((.ofList tail ++ first) :: others) word) :
    ReadsToken before ('<' :: (tail ++ (text ++ later)))
      ⟨.keyword word, .ofList ('<' :: (tail ++ text)), .ofPrefix before⟩ later := by
  have hnil := List.cons_ne_nil '<' tail
  have hscan := Scan.ofLess_of_means (p := .ofPrefix before) hnil hwritten hmeans later
  obtain ⟨c, behind, rfl, hstart⟩ := hwritten.exists_cons
  rw [List.cons_append, ← Scan.ofChars_of_less hnil hmem hstart] at hscan
  refine ReadsToken.of_ofChars (by decide) hscan ?_ ?_
  · rw [List.cons_append, List.append_assoc, List.cons_append]
  · rw [← List.cons_append, List.length_append]
    rfl

/-- A lexeme by itself is no marker. -/
theorem not_isMarker_of_kind? {lexeme : Lexeme} {kind : TokenKind} (h : Matches text lexeme)
    (hkind : lexeme.kind? text = some kind) : ¬ kind.isMarker := by
  have hfixed : ∀ entry ∈ spellings, ∀ kind ∈ entry.2.kind? entry.1, ¬ kind.isMarker := by decide
  rcases h.fixed_or with hmem | ⟨rfl, -⟩ | rfl
  · exact hfixed _ hmem kind hkind
  · obtain rfl := Option.some.inj hkind
    exact Bool.false_ne_true
  · obtain ⟨value, -, rfl⟩ := Option.map_eq_some_iff.1 hkind
    exact Bool.false_ne_true

/-- The spellings of the less-than sign. -/
theorem less_mem_spellings_iff {front : List Char} :
    (front, .operator .less) ∈ spellings ↔ ∃ tail ∈ [[], ['<', '>']], front = '<' :: tail := by
  have hfixed : ∀ entry ∈ spellings, entry.2 = .operator .less →
      ∃ tail ∈ [[], ['<', '>']], entry.1 = '<' :: tail := by
    decide
  have htails : ∀ tail ∈ [[], ['<', '>']], ('<' :: tail, .operator .less) ∈ spellings := by
    decide
  refine ⟨fun hmem => hfixed _ hmem rfl, ?_⟩
  rintro ⟨tail, htail, rfl⟩
  exact htails tail htail

theorem Marker.Means.isMarker {words : List String} (h : Means words word) :
    (TokenKind.keyword word).isMarker := by
  cases h <;> rfl

/-- The markers that are read, behind either spelling of the less-than sign. -/
theorem readsToken_and_isMarker_iff :
    ReadsToken before rest token later ∧ token.kind.isMarker ↔
      ∃ tail first others text word, tail ∈ [[], ['<', '>']] ∧ WrittenAs (first :: others) text ∧
        Means ((.ofList tail ++ first) :: others) word ∧ rest = '<' :: (tail ++ (text ++ later)) ∧
        token = ⟨.keyword word, .ofList ('<' :: (tail ++ text)), .ofPrefix before⟩ := by
  constructor
  · rintro ⟨hread, hmarker⟩
    cases hread with | @mk c rest scan hblank hscan =>
    obtain ⟨front, lexeme, hnil, hfront, hlexeme⟩ := Scan.exists_front_of_ofChars hscan
    have hlongest := longestMatch_of_front? hfront
    dsimp only at hmarker
    rcases Scan.cases_of_ofLexeme hnil hlexeme with ⟨hkind, -⟩ | ⟨-, content, hkind⟩ |
      ⟨-, hkind⟩ | ⟨rfl, marker, word, hwords, hword, hkind, hlength⟩
    case inl => exact absurd hmarker (not_isMarker_of_kind? hlongest.isMatch hkind)
    case inr.inl =>
      rw [hkind] at hmarker
      exact nomatch hmarker
    case inr.inr.inl =>
      rw [hkind] at hmarker
      exact nomatch hmarker
    case inr.inr.inr =>
      -- Both spellings of the sign get here, and the words are read from behind the first bracket.
      have hmem : (front, .operator .less) ∈ spellings := by simpa using hlongest.isMatch.fixed_or
      obtain ⟨tail, htail, rfl⟩ := less_mem_spellings_iff.1 hmem
      obtain ⟨behind, hbehind⟩ := hlongest.isPrefix
      rw [← hbehind, List.drop_left] at hwords
      obtain ⟨text, hwritten, ⟨later, rfl⟩, htext⟩ := writtenAs_of_ofChars? hwords
      rw [List.tail_cons, String.ofList_append] at hword
      have hrest : c :: rest = '<' :: (tail ++ text) ++ later := by
        rw [← hbehind, List.cons_append, List.cons_append, List.append_assoc]
      have hlength' : scan.length = ('<' :: (tail ++ text)).length := by
        rw [hlength, htext, ← List.length_append, List.cons_append]
      refine ⟨tail, _, marker.others, text, word, htail, hwritten, keyword?_eq_some_iff.1 hword,
        ?_, ?_⟩
      · rw [hlength', hrest, List.drop_left, List.cons_append, List.append_assoc]
      · rw [hkind, hlength', hrest, List.take_left]
  · rintro ⟨tail, first, others, text, word, htail, hwritten, hmeans, rfl, rfl⟩
    have hmem := less_mem_spellings_iff.2 ⟨tail, htail, rfl⟩
    exact ⟨readsToken_of_means hmem hwritten hmeans, hmeans.isMarker⟩

/--
The markers of a source text. Where a token begins with `<` and a word directly behind it: if a
marker is spelt there, it is read as a whole, or refused as a whole when its words mean nothing;
otherwise the bracket is read by itself. Tokens that are markers come about in this way and in one
other: behind the sign `<<>`, with `<>` in front of the first word.
-/
theorem tokenize_markers (source : String) {tokens : List Token}
    (hplace : Splits source tokens before rest) :
    (∀ c behind, rest = '<' :: c :: behind → isNameStart c →
      (∀ words text later, WrittenAs words text → c :: behind = text ++ later →
        (∀ word, Means words word →
          ReadsToken before rest ⟨.keyword word, .ofList ('<' :: text), .ofPrefix before⟩ later) ∧
        ((∀ word, ¬ Means words word) →
          tokenize source = .error (.invalidMarker (.ofList ('<' :: text)) (.ofPrefix before)))) ∧
      ((∀ words text, WrittenAs words text → ¬ text <+: c :: behind) →
        ReadsToken before rest ⟨.operator .less, "<", .ofPrefix before⟩ (c :: behind))) ∧
    ∀ token later, ReadsToken before rest token later ∧ token.kind.isMarker ↔
      ∃ tail first others text word, tail ∈ [[], ['<', '>']] ∧ WrittenAs (first :: others) text ∧
        Means ((.ofList tail ++ first) :: others) word ∧ rest = '<' :: (tail ++ (text ++ later)) ∧
        token = ⟨.keyword word, .ofList ('<' :: (tail ++ text)), .ofPrefix before⟩ := by
  refine ⟨?_, fun token later => readsToken_and_isMarker_iff⟩
  rintro c behind rfl hstart
  have hmem : (['<'], .operator .less) ∈ spellings := less_mem_spellings_iff.2 ⟨[], by simp, rfl⟩
  have hnil := List.cons_ne_nil '<' []
  have hless := Scan.ofChars_of_less (p := .ofPrefix before) hnil hmem hstart behind
  rw [List.nil_append] at hless
  refine ⟨fun words text later hwritten hbehind => ?_, fun hnone => ?_⟩
  · obtain ⟨first, others, rfl⟩ : ∃ first others, words = first :: others := by
      cases hwritten <;> exact ⟨_, _, rfl⟩
    have hfirst : String.ofList [] ++ first = first := by simp
    rw [← hfirst, hbehind]
    refine ⟨fun word hmeans => readsToken_of_means hmem hwritten hmeans, fun hmeans => ?_⟩
    refine hplace.tokenize_error (by decide) ?_
    rw [hless, hbehind]
    exact Scan.ofLess_of_not_means hnil hwritten hmeans later
  · have htext : '<' :: c :: behind = ['<'] ++ c :: behind := rfl
    rw [Scan.ofLess_of_not_writtenAs hnil hnone] at hless
    exact ReadsToken.of_ofChars (by decide) hless htext rfl

/-- The marker of a constant, with a name directly behind it. -/
theorem tokenize_markers_of_const :
    Splits "<const int>x" [] [] "<const int>x".toList ∧
      WrittenAs ["const", "int"] "const int>".toList ∧ Means ["const", "int"] (.const "int") ∧
      ReadsToken [] "<const int>x".toList
        ⟨.keyword (.const "int"), "<const int>", ⟨1, 1⟩⟩ ['x'] := by
  have hplace : Splits "<const int>x" [] [] "<const int>x".toList := .start
  have hwritten : WrittenAs ["const", "int"] "const int>".toList :=
    @WrittenAs.two ['c', 'o', 'n', 's', 't'] [' '] ['i', 'n', 't'] []
      (.mk rfl (List.all_eq_true.1 rfl)) (List.cons_ne_nil _ _) (List.all_eq_true.1 rfl)
      (.mk rfl (List.all_eq_true.1 rfl)) (List.all_eq_true.1 rfl)
  have hmeans : Means ["const", "int"] (.const "int") := .constType (by decide)
  have hmarkers := (tokenize_markers "<const int>x" hplace).1 'c' _ rfl (by decide)
  exact ⟨hplace, hwritten, hmeans, (hmarkers.1 _ _ ['x'] hwritten rfl).1 _ hmeans⟩

/-- A marker whose first word is not directly behind its bracket. -/
theorem tokenize_less_marker :
    tokenize "<<>int>" =
      .ok [⟨.keyword (.var "<>int"), "<<>int>", ⟨1, 1⟩⟩, ⟨.endOfInput, "", ⟨1, 8⟩⟩] ∧
    ¬ ∃ words text later, WrittenAs words text ∧ "<<>int>".toList = '<' :: (text ++ later) := by
  refine ⟨by cbv, ?_⟩
  rintro ⟨words, text, later, hwritten, htext⟩
  obtain ⟨c, behind, rfl, hstart⟩ := hwritten.exists_cons
  obtain rfl := (List.cons.inj (List.cons.inj htext).2).1
  exact absurd hstart (by decide)

end Arrow
