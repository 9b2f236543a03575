import Arrow.Proofs.Token.Starts
import Mathlib

/-!
# The longest match

A lexeme is a fixed spelling, a name or a number (`Lexeme.Matches`). `Lexeme.front?` takes the
longest one at the front of a text, and the fixed spelling of two equally long ones
(`Lexeme.front?_eq_some_iff`). Every token is this lexeme, or begins with it (`tokenize_longest`).
-/

namespace Arrow

namespace Lexeme

/-! ## Lexemes -/

/-- A letter or an underscore, and letters, digits and underscores behind it. -/
inductive IsName : List Char → Prop
  | mk {c : Char} {text : List Char} (hstart : isNameStart c) (hparts : ∀ d ∈ text, isNamePart d) :
    IsName (c :: text)

/-- One digit or more. -/
structure IsDigits (text : List Char) : Prop where
  ne_nil : text ≠ []
  digits : ∀ c ∈ text, c.isDigit

/-- The texts that a lexeme stands for. -/
inductive Matches : (text : List Char) → Lexeme → Prop
  | fixed {text : List Char} {lexeme : Lexeme} (h : (text, lexeme) ∈ spellings) :
    Matches text lexeme
  | name {text : List Char} (h : IsName text) : Matches text name
  | integer {text : List Char} (h : IsDigits text) : Matches text number
  | decimal {whole fraction : List Char} (hwhole : IsDigits whole) (hfraction : IsDigits fraction) :
    Matches (whole ++ '.' :: fraction) number

/-- `text` is the longest lexeme at the front of `source`, as a fixed spelling if it is one. -/
structure LongestMatch (source text : List Char) (lexeme : Lexeme) : Prop where
  isPrefix : text <+: source
  isMatch : Matches text lexeme
  length_le : ∀ other lexeme', Matches other lexeme' → other <+: source →
    other.length ≤ text.length
  eq_of_fixed : ∀ lexeme', (text, lexeme') ∈ spellings → lexeme' = lexeme

variable {source text : List Char} {lexeme : Lexeme}

theorem isNamePart_of_isNameStart {c : Char} (h : isNameStart c) : isNamePart c := by
  unfold isNameStart at h
  unfold isNamePart Char.isAlphanum
  simp only [Bool.or_eq_true] at h ⊢
  tauto

theorem IsName.isNamePart (h : IsName text) : ∀ c ∈ text, isNamePart c := by
  obtain ⟨hstart, hparts⟩ := h
  intro c hc
  rcases List.mem_cons.1 hc with rfl | hc
  · exact isNamePart_of_isNameStart hstart
  · exact hparts c hc

theorem IsName.ne_nil (h : IsName text) : text ≠ [] := by
  cases h
  exact List.cons_ne_nil _ _

/-- No two entries of the table have the same spelling. -/
theorem nodup_spellings : (spellings.map Prod.fst).Nodup := by
  decide

theorem eq_of_mem_spellings {lexeme' : Lexeme} (h : (text, lexeme) ∈ spellings)
    (h' : (text, lexeme') ∈ spellings) : lexeme = lexeme' :=
  congrArg Prod.snd (List.inj_on_of_nodup_map nodup_spellings h h' rfl)

theorem ne_nil_of_mem_spellings : ∀ entry ∈ spellings, entry.1 ≠ [] := by
  decide

theorem Matches.ne_nil (h : Matches text lexeme) : text ≠ [] := by
  cases h with
  | fixed h => exact ne_nil_of_mem_spellings _ h
  | name h => exact h.ne_nil
  | integer h => exact h.ne_nil
  | decimal hwhole => exact List.append_ne_nil_of_left_ne_nil hwhole.ne_nil _

/-! ## The longest name and the longest number -/

theorem prefix_takeWhile {test : Char → Bool} (h : text <+: source) (htest : ∀ c ∈ text, test c) :
    text <+: source.takeWhile test := by
  obtain ⟨behind, rfl⟩ := h
  rw [List.takeWhile_append_of_pos htest]
  exact List.prefix_append _ _

theorem takeWhile_append_eq_left {test : Char → Bool} {behind : List Char}
    (htest : ∀ c ∈ text, test c) (hbehind : ∀ c ∈ behind.head?, ¬ test c) :
    (text ++ behind).takeWhile test = text := by
  rw [List.takeWhile_append_of_pos htest, List.append_right_eq_self]
  cases behind with
  | nil => rfl
  | cons c behind => exact List.takeWhile_cons_of_neg (hbehind c rfl)

theorem nameFront_cons {c : Char} (h : isNameStart c) (rest : List Char) :
    nameFront (c :: rest) = c :: rest.takeWhile isNamePart := by
  unfold nameFront
  rw [List.head?_cons, Option.any_some, if_pos h,
    List.takeWhile_cons_of_pos (isNamePart_of_isNameStart h)]

theorem isName_nameFront (h : nameFront source ≠ []) : IsName (nameFront source) := by
  cases source with
  | nil => exact absurd rfl h
  | cons c rest =>
    by_cases hstart : isNameStart c
    · rw [nameFront_cons hstart]
      exact .mk hstart fun d hd => List.mem_takeWhile_imp hd
    · unfold nameFront at h
      rw [List.head?_cons, Option.any_some, if_neg hstart] at h
      exact absurd rfl h

theorem IsName.prefix_nameFront (h : IsName text) (hopens : text <+: source) :
    text <+: nameFront source := by
  have hrun := prefix_takeWhile hopens h.isNamePart
  obtain ⟨hstart, hparts⟩ := h
  obtain ⟨behind, rfl⟩ := hopens
  rw [List.cons_append] at hrun ⊢
  rw [nameFront_cons hstart]
  rwa [List.takeWhile_cons_of_pos (isNamePart_of_isNameStart hstart)] at hrun

theorem isDigit_of_mem_fractionFront : ∀ c ∈ fractionFront source, c.isDigit := by
  unfold fractionFront
  split
  case h_1 => exact fun c hc => List.mem_takeWhile_imp hc
  case h_2 => exact fun c hc => absurd hc List.not_mem_nil

theorem matches_numberFront (h : numberFront source ≠ []) :
    Matches (numberFront source) number := by
  unfold numberFront at h ⊢
  dsimp only at h ⊢
  split at h
  case isTrue hone =>
    rw [if_pos hone]
    exact .integer ⟨h, fun c hc => List.mem_takeWhile_imp hc⟩
  case isFalse hboth =>
    rw [if_neg hboth]
    rw [Bool.or_eq_true, not_or, List.isEmpty_iff, List.isEmpty_iff] at hboth
    exact .decimal ⟨hboth.1, fun c hc => List.mem_takeWhile_imp hc⟩
      ⟨hboth.2, isDigit_of_mem_fractionFront⟩

theorem IsDigits.length_le_numberFront (h : IsDigits text) (hopens : text <+: source) :
    text.length ≤ (numberFront source).length :=
  Nat.le_trans (prefix_takeWhile hopens h.digits).length_le (length_whole_le_numberFront source)

/-- With digits behind its point, the whole number belongs to the front. -/
theorem IsDigits.prefix_numberFront {whole fraction : List Char} (hwhole : IsDigits whole)
    (hfraction : IsDigits fraction) (hopens : whole ++ '.' :: fraction <+: source) :
    whole ++ '.' :: fraction <+: numberFront source := by
  obtain ⟨behind, rfl⟩ := hopens
  rw [List.append_assoc, List.cons_append]
  have hwhole' : (whole ++ '.' :: (fraction ++ behind)).takeWhile Char.isDigit = whole :=
    takeWhile_append_eq_left hwhole.digits (by simp)
  have hrest : (whole ++ '.' :: (fraction ++ behind)).dropWhile Char.isDigit =
      '.' :: (fraction ++ behind) := by
    rw [List.dropWhile_append_of_pos hwhole.digits]
    rfl
  have hrun : fraction <+: fractionFront ('.' :: (fraction ++ behind)) :=
    prefix_takeWhile (List.prefix_append _ _) hfraction.digits
  have hsome : fractionFront ('.' :: (fraction ++ behind)) ≠ [] := fun hnil =>
    hfraction.ne_nil (List.prefix_nil.1 (hnil ▸ hrun))
  unfold numberFront
  rw [hwhole', hrest, if_neg (by simp [hwhole.ne_nil, hsome]), List.prefix_append_right_inj]
  exact List.cons_prefix_cons.2 ⟨rfl, hrun⟩

/-! ## The longest lexeme -/

/-- No lexeme at the front of `source` is longer than all the fronts. -/
theorem Matches.exists_front (h : Matches text lexeme) (hopens : text <+: source) :
    ∃ entry ∈ fronts source, text.length ≤ entry.1.length := by
  have hname : (nameFront source, Lexeme.name) ∈ fronts source := by simp [fronts]
  have hnumber : (numberFront source, number) ∈ fronts source := by simp [fronts]
  cases h with
  | fixed h =>
    have hmem : (text, lexeme) ∈ spellings.filter (·.1.isPrefixOf source) :=
      List.mem_filter.2 ⟨h, List.isPrefixOf_iff_prefix.2 hopens⟩
    exact ⟨_, List.mem_append_left _ hmem, Nat.le_refl _⟩
  | name h => exact ⟨_, hname, (h.prefix_nameFront hopens).length_le⟩
  | integer h => exact ⟨_, hnumber, h.length_le_numberFront hopens⟩
  | decimal hwhole hfraction =>
    exact ⟨_, hnumber, (hwhole.prefix_numberFront hfraction hopens).length_le⟩

theorem matches_of_mem_fronts {entry : List Char × Lexeme} (h : entry ∈ fronts source)
    (hnil : entry.1 ≠ []) : Matches entry.1 entry.2 := by
  unfold fronts at h
  rcases List.mem_append.1 h with h | h
  · exact .fixed (List.mem_filter.1 h).1
  · simp only [List.mem_cons, List.not_mem_nil, or_false] at h
    rcases h with rfl | rfl
    · exact .name (isName_nameFront hnil)
    · exact matches_numberFront hnil

theorem front?_eq_some {best : List Char × Lexeme} (h : front? source = some best) :
    (fronts source).foldl longer ([], name) = best ∧ best.1 ≠ [] := by
  unfold front? at h
  split at h
  case h_1 => exact nomatch h
  case h_2 hnone =>
    obtain rfl := Option.some.inj h
    exact ⟨rfl, fun hnil => hnone _ (Prod.ext hnil rfl)⟩

theorem foldl_longer_of_length_le {entries : List (List Char × Lexeme)} {best : List Char × Lexeme}
    (h : ∀ entry ∈ entries, entry.1.length ≤ best.1.length) : entries.foldl longer best = best := by
  induction entries with
  | nil => rfl
  | cons entry entries ih =>
    rw [List.foldl_cons, longer, if_neg (Nat.not_lt.2 (h entry List.mem_cons_self))]
    exact ih fun other hother => h other (List.mem_cons_of_mem _ hother)

/-- The table stands first among the fronts, so its entry is taken from equally long ones. -/
theorem eq_of_mem_spellings_of_front? (h : front? source = some (text, lexeme))
    {lexeme' : Lexeme} (hmem : (text, lexeme') ∈ spellings) : lexeme' = lexeme := by
  have hopens : text <+: source := prefix_of_mem_fronts (mem_fronts_of_front? h)
  have hlongest := length_le_of_front? h
  obtain ⟨hfold, hnil⟩ := front?_eq_some h
  unfold fronts at hfold hlongest
  rw [List.foldl_append] at hfold
  generalize hfixed : spellings.filter (·.1.isPrefixOf source) = fixed at hfold hlongest
  have hentry : (text, lexeme') ∈ fixed :=
    hfixed ▸ List.mem_filter.2 ⟨hmem, List.isPrefixOf_iff_prefix.2 hopens⟩
  have hbest := (length_le_foldl_longer fixed ([], name)).2 _ hentry
  rw [foldl_longer_of_length_le fun entry hentry =>
    Nat.le_trans (hlongest entry (List.mem_append_right _ hentry)) hbest] at hfold
  rcases List.mem_cons.1 (foldl_longer_mem fixed ([], name)) with hnone | hmem'
  · exact absurd (congrArg Prod.fst (hfold.symm.trans hnone)) hnil
  · rw [hfold, ← hfixed] at hmem'
    exact eq_of_mem_spellings hmem (List.mem_filter.1 hmem').1

theorem longestMatch_of_front? (h : front? source = some (text, lexeme)) :
    LongestMatch source text lexeme where
  isPrefix := prefix_of_mem_fronts (mem_fronts_of_front? h)
  isMatch := matches_of_mem_fronts (mem_fronts_of_front? h) (front?_eq_some h).2
  length_le other lexeme' hmatches hopens := by
    obtain ⟨entry, hentry, hlength⟩ := hmatches.exists_front hopens
    exact Nat.le_trans hlength (length_le_of_front? h entry hentry)
  eq_of_fixed lexeme' hmem := eq_of_mem_spellings_of_front? h hmem

/-- There is no lexeme at the front of a text exactly when none is taken. -/
theorem front?_eq_none_iff :
    front? source = none ↔ ∀ text lexeme, Matches text lexeme → ¬ text <+: source := by
  constructor
  · intro h text lexeme hmatches hopens
    obtain ⟨entry, hentry, hlength⟩ := hmatches.exists_front hopens
    have hle := (length_le_foldl_longer (fronts source) ([], name)).2 entry hentry
    unfold front? at h
    split at h
    case h_1 hfold =>
      rw [hfold] at hle
      exact hmatches.ne_nil (List.length_eq_zero_iff.1 (Nat.le_zero.1 (Nat.le_trans hlength hle)))
    case h_2 => exact nomatch h
  · intro h
    cases hfront : front? source with
    | none => rfl
    | some best =>
      have hlongest := longestMatch_of_front? hfront
      exact absurd hlongest.isPrefix (h _ _ hlongest.isMatch)

theorem not_isNameStart_of_isDigit {c : Char} (h : c.isDigit) : ¬ isNameStart c := by
  unfold isNameStart Char.isAlpha Char.isUpper Char.isLower
  unfold Char.isDigit at h
  rintro hstart
  simp only [ge_iff_le, Bool.or_eq_true, Bool.and_eq_true, decide_eq_true_eq,
    UInt32.le_iff_toNat_le] at h hstart
  rcases hstart with (hupper | hlower) | rfl
  · have := h.2.trans_lt (Nat.lt_of_lt_of_le (by decide) hupper.1)
    omega
  · have := h.2.trans_lt (Nat.lt_of_lt_of_le (by decide) hlower.1)
    omega
  · exact absurd h.2 (by decide)

theorem Matches.isDigit_head (h : Matches text number) : ∃ c ∈ text.head?, c.isDigit := by
  have hfixed : ∀ entry ∈ spellings, entry.2 ≠ number := by decide
  generalize hnumber : number = lexeme at h
  cases h with
  | fixed h => exact absurd hnumber.symm (hfixed _ h)
  | name h => exact nomatch hnumber
  | integer h => exact ⟨text.head h.ne_nil, List.head?_eq_some_head _, h.digits _ (List.head_mem _)⟩
  | @decimal whole fraction hwhole hfraction =>
    refine ⟨whole.head hwhole.ne_nil, ?_, hwhole.digits _ (List.head_mem _)⟩
    rw [List.head?_append_of_ne_nil _ hwhole.ne_nil]
    exact List.head?_eq_some_head _

theorem IsName.not_matches_number (h : IsName text) : ¬ Matches text number := by
  intro hnumber
  obtain ⟨c, hc, hdigit⟩ := hnumber.isDigit_head
  cases h with | mk hstart hparts =>
  obtain rfl := Option.some.inj hc
  exact not_isNameStart_of_isDigit hdigit hstart

theorem Matches.fixed_or (h : Matches text lexeme) :
    (text, lexeme) ∈ spellings ∨ lexeme = .name ∧ IsName text ∨ lexeme = number := by
  cases h with
  | fixed h => exact .inl h
  | name h => exact .inr (.inl ⟨rfl, h⟩)
  | integer => exact .inr (.inr rfl)
  | decimal => exact .inr (.inr rfl)

/-- The longest match is one text, and stands for one lexeme. -/
theorem LongestMatch.unique {text' : List Char} {lexeme' : Lexeme}
    (h : LongestMatch source text lexeme) (h' : LongestMatch source text' lexeme') :
    text' = text ∧ lexeme' = lexeme := by
  have hle := h.length_le _ _ h'.isMatch h'.isPrefix
  have hge := h'.length_le _ _ h.isMatch h.isPrefix
  obtain rfl := (List.prefix_of_prefix_length_le h'.isPrefix h.isPrefix hle).eq_of_length
    (Nat.le_antisymm hle hge)
  refine ⟨rfl, ?_⟩
  rcases h.isMatch.fixed_or with hmem | ⟨rfl, hname⟩ | rfl
  · exact (h'.eq_of_fixed _ hmem).symm
  · rcases h'.isMatch.fixed_or with hmem | ⟨rfl, -⟩ | rfl
    · exact h.eq_of_fixed _ hmem
    · rfl
    · exact absurd h'.isMatch hname.not_matches_number
  · rcases h'.isMatch.fixed_or with hmem | ⟨rfl, hname⟩ | rfl
    · exact h.eq_of_fixed _ hmem
    · exact absurd h.isMatch hname.not_matches_number
    · rfl

/-- The lexeme that is taken is the longest match. -/
theorem front?_eq_some_iff :
    front? source = some (text, lexeme) ↔ LongestMatch source text lexeme := by
  refine ⟨longestMatch_of_front?, fun h => ?_⟩
  cases hfront : front? source with
  | none => exact absurd h.isPrefix (front?_eq_none_iff.1 hfront _ _ h.isMatch)
  | some best =>
    obtain ⟨htext, hlexeme⟩ := h.unique (longestMatch_of_front? hfront)
    exact congrArg some (Prod.ext htext hlexeme)

/-- The kind of a token that is the lexeme `text` and nothing else. -/
def kind? (text : List Char) : Lexeme → Option TokenKind
  | keyword word => some (.keyword word)
  | operator op => some (.operator op)
  | punctuation c => some (.punctuation c)
  | name => some (.identifier (.ofList text))
  | number => (Number.ofChars? text).map .number
  | quote | lineComment | blockComment => none

def isKeyword : Lexeme → Bool
  | keyword _ => true
  | _ => false

theorem isKeyword_iff_of_mem_spellings : ∀ entry ∈ spellings,
    entry.2.isKeyword ↔ .ofList entry.1 ∈ ["if", "elif", "else", "while", "for", "->"] := by
  decide

/-- The words and the mark that are keywords. -/
theorem LongestMatch.isKeyword_iff (h : LongestMatch source text lexeme) :
    lexeme.isKeyword ↔ .ofList text ∈ ["if", "elif", "else", "while", "for", "->"] := by
  have hspelt : ∀ word ∈ ["if", "elif", "else", "while", "for", "->"],
      ∃ entry ∈ spellings, entry.1 = word.toList := by
    decide
  constructor
  · intro hkeyword
    rcases h.isMatch.fixed_or with hmem | ⟨rfl, -⟩ | rfl
    · exact (isKeyword_iff_of_mem_spellings _ hmem).1 hkeyword
    · exact nomatch hkeyword
    · exact nomatch hkeyword
  · intro hword
    obtain ⟨entry, hmem, hentry⟩ := hspelt _ hword
    rw [String.toList_ofList] at hentry
    subst hentry
    rw [← h.eq_of_fixed entry.2 hmem]
    exact (isKeyword_iff_of_mem_spellings _ hmem).2 hword

theorem isKeyword_of_kind? {kind : TokenKind} (h : lexeme.kind? text = some kind) :
    lexeme.isKeyword ↔ ∃ word, kind = .keyword word := by
  cases lexeme with
  | keyword word =>
    obtain rfl := Option.some.inj h
    exact iff_of_true rfl ⟨word, rfl⟩
  | number =>
    obtain ⟨value, -, rfl⟩ := Option.map_eq_some_iff.1 h
    exact iff_of_false Bool.false_ne_true fun ⟨_, hword⟩ => nomatch hword
  | operator | punctuation | name =>
    obtain rfl := Option.some.inj h
    exact iff_of_false Bool.false_ne_true fun ⟨_, hword⟩ => nomatch hword
  | quote | lineComment | blockComment => exact nomatch h

theorem kind?_ne_comment : lexeme.kind? text ≠ some .comment := by
  cases lexeme <;> simp [kind?]

theorem kind?_ne_text {content : String} : lexeme.kind? text ≠ some (.text content) := by
  cases lexeme <;> simp [kind?]

end Lexeme

/-! ## Tokens -/

/-- Whether a token is the marker of a declaration. -/
def TokenKind.isMarker : TokenKind → Bool
  | .keyword (.var _) | .keyword (.const _) | .keyword (.fn _) => true
  | _ => false

theorem Marker.isMarker_of_keyword? {first second : String} {word : Keyword}
    (h : keyword? first second = some word) : (TokenKind.keyword word).isMarker := by
  unfold keyword? at h
  dsimp only at h
  repeat' split at h
  all_goals cases h
  all_goals rfl

open Lexeme in
/-- A token is the longest match at the front of `rest`, or is opened by it. -/
structure Token.IsLongest (rest : List Char) (token : Token) : Prop where
  /-- A token that is no comment, no text and no marker is the longest match and has its kind. -/
  exists_lexeme : ¬ token.isComment → (∀ content, token.kind ≠ .text content) →
    ¬ token.kind.isMarker → ∃ lexeme, LongestMatch rest token.text.toList lexeme ∧
      lexeme.kind? token.text.toList = some token.kind ∧
      ((∃ word, token.kind = .keyword word) ↔
        token.text ∈ ["if", "elif", "else", "while", "for", "->"])
  comment : token.isComment → ∃ front, front <+: token.text.toList ∧
    (LongestMatch rest front .lineComment ∨ LongestMatch rest front .blockComment)
  text : ∀ content, token.kind = .text content →
    ∃ front, front <+: token.text.toList ∧ LongestMatch rest front .quote

namespace Scan

open Lexeme

variable {p : Position} {front source : List Char} {lexeme : Lexeme} {scan : Scan} {c : Char}

/-- What a token that begins with `front` can be. -/
theorem cases_of_ofLexeme (h : front ≠ []) (hscan : ofLexeme p lexeme front h source = .ok scan) :
    (lexeme.kind? front = some scan.kind ∧ scan.length = front.length) ∨
    (lexeme = .quote ∧ ∃ content, scan.kind = .text content) ∨
    ((lexeme = .lineComment ∨ lexeme = .blockComment) ∧ scan.kind = .comment) ∨
    (lexeme = .operator .less ∧ ∃ words word, Marker.ofChars? source = some words ∧
      Marker.keyword? (.ofList (front.tail ++ words.first)) (.ofList words.second) = some word ∧
      scan.kind = .keyword word ∧ scan.length = front.length + words.length) := by
  unfold ofLexeme at hscan
  split at hscan
  case h_2 =>
    unfold ofLess at hscan
    split at hscan
    case h_1 =>
      cases hscan
      exact .inl ⟨rfl, rfl⟩
    case h_2 words hwords =>
      split at hscan
      case h_1 word hword =>
        cases hscan
        exact .inr (.inr (.inr ⟨rfl, words, word, hwords, hword, rfl, rfl⟩))
      case h_2 => cases hscan
  case h_6 =>
    split at hscan
    case h_1 value hvalue =>
      cases hscan
      exact .inl ⟨congrArg (Option.map TokenKind.number) hvalue, rfl⟩
    case h_2 => cases hscan
  case h_7 =>
    dsimp only at hscan
    split at hscan
    case h_1 => cases hscan
    case h_2 =>
      cases hscan
      exact .inr (.inl ⟨rfl, _, rfl⟩)
  case h_8 =>
    cases hscan
    exact .inr (.inr (.inl ⟨.inl rfl, rfl⟩))
  case h_9 =>
    cases hscan
    exact .inr (.inr (.inl ⟨.inr rfl, rfl⟩))
  all_goals
    cases hscan
    exact .inl ⟨rfl, rfl⟩

theorem ofChars_of_front? (h : front ≠ []) (hfront : front? (c :: source) = some (front, lexeme)) :
    ofChars p c source = ofLexeme p lexeme front h ((c :: source).drop front.length) := by
  unfold ofChars
  rw [hfront]
  cases front with
  | nil => exact absurd rfl h
  | cons d front => rfl

/-- A character is unexpected exactly where no lexeme begins. -/
theorem ofChars_eq_unexpectedCharacter_iff {d : Char} {q : Position} :
    ofChars p c source = .error (.unexpectedCharacter d q) ↔
      front? (c :: source) = none ∧ c = d ∧ p = q := by
  cases hfront : front? (c :: source) with
  | none =>
    unfold ofChars
    rw [hfront]
    dsimp only
    rw [Except.error.injEq, LexError.unexpectedCharacter.injEq]
    exact (and_iff_right rfl).symm
  | some best =>
    obtain ⟨front, lexeme⟩ := best
    rw [ofChars_of_front? (front?_eq_some hfront).2 hfront]
    refine iff_of_false (fun herror => ?_) fun hnone => Option.some_ne_none _ hnone.1
    unfold ofLexeme ofLess at herror
    dsimp only at herror
    repeat' split at herror
    all_goals cases herror

theorem exists_front_of_ofChars (h : ofChars p c source = .ok scan) :
    ∃ front lexeme, ∃ hfront : front ≠ [], front? (c :: source) = some (front, lexeme) ∧
      ofLexeme p lexeme front hfront ((c :: source).drop front.length) = .ok scan := by
  cases hfront : front? (c :: source) with
  | none =>
    rw [ofChars_eq_unexpectedCharacter_iff.2 ⟨hfront, rfl, rfl⟩] at h
    exact nomatch h
  | some best =>
    obtain ⟨front, lexeme⟩ := best
    have hnil := (front?_eq_some hfront).2
    rw [ofChars_of_front? hnil hfront] at h
    exact ⟨front, lexeme, hnil, rfl, h⟩

end Scan

open Lexeme

variable {source : String} {before rest later : List Char} {token : Token}

theorem ReadsToken.isLongest (h : ReadsToken before rest token later) : token.IsLongest rest := by
  cases h with | @mk c rest scan hblank hscan =>
  obtain ⟨front, lexeme, hnil, hfront, hlexeme⟩ := Scan.exists_front_of_ofChars hscan
  have hlongest := longestMatch_of_front? hfront
  have hopens : front <+: (c :: rest).take scan.length := by
    refine List.prefix_of_prefix_length_le hlongest.isPrefix (List.take_prefix _ _) ?_
    rw [List.length_take_of_le (Scan.length_le_of_ofChars hscan)]
    exact Scan.length_le_of_ofLexeme hnil hlexeme
  rcases Scan.cases_of_ofLexeme hnil hlexeme with ⟨hkind, hlength⟩ | ⟨rfl, content, hkind⟩ |
    ⟨hcomment, hkind⟩ | ⟨-, words, word, -, hword, hkind, -⟩
  case inl =>
    have htext : (c :: rest).take scan.length = front := by
      rw [hlength]
      exact (List.prefix_iff_eq_take.1 hlongest.isPrefix).symm
    rw [htext]
    refine ⟨fun _ _ _ => ⟨lexeme, ?_, ?_, ?_⟩, fun hcomment => ?_, fun content hcontent => ?_⟩
    · rwa [String.toList_ofList]
    · rwa [String.toList_ofList]
    · rw [← isKeyword_of_kind? hkind, hlongest.isKeyword_iff]
    · exact absurd (hkind.trans (congrArg some (of_decide_eq_true hcomment))) kind?_ne_comment
    · exact absurd (hkind.trans (congrArg some hcontent)) kind?_ne_text
  case inr.inl =>
    refine ⟨fun _ htext _ => absurd hkind (htext content), fun hcomment => ?_, fun _ _ => ?_⟩
    · exact nomatch hkind.symm.trans (of_decide_eq_true hcomment)
    · exact ⟨front, by rwa [String.toList_ofList], hlongest⟩
  case inr.inr.inl =>
    refine ⟨fun hother => absurd (decide_eq_true hkind) hother, fun _ => ⟨front, ?_, ?_⟩,
      fun content hcontent => nomatch hkind.symm.trans hcontent⟩
    · rwa [String.toList_ofList]
    · rcases hcomment with rfl | rfl
      · exact .inl hlongest
      · exact .inr hlongest
  case inr.inr.inr =>
    refine ⟨fun _ _ hmarker => absurd ?_ hmarker, fun hcomment => ?_, fun content hcontent => ?_⟩
    · rw [hkind]
      exact Marker.isMarker_of_keyword? hword
    · exact nomatch hkind.symm.trans (of_decide_eq_true hcomment)
    · exact nomatch hkind.symm.trans hcontent

/--
The tokens of a source text are longest matches. Each token but the last is read at a place that
`tokenize` comes to, and each unexpected character stands at one. At every such place, a token that
is read is the longest match or is opened by it, and the character there is reported as unexpected
exactly when there is no match.
-/
theorem tokenize_longest (source : String) :
    (∀ tokens, tokenize source = .ok tokens → ∀ token ∈ tokens, token.kind ≠ .endOfInput →
      ∃ tokens before rest later, Splits source tokens before rest ∧
        ReadsToken before rest token later) ∧
    (∀ c p, tokenize source = .error (.unexpectedCharacter c p) →
      ∃ tokens before rest, Splits source tokens before (c :: rest) ∧ ¬ isBlank c ∧
        p = .ofPrefix before) ∧
    ∀ tokens before c rest, Splits source tokens before (c :: rest) → ¬ isBlank c →
      (∀ token later, ReadsToken before (c :: rest) token later → token.IsLongest (c :: rest)) ∧
      (tokenize source = .error (.unexpectedCharacter c (.ofPrefix before)) ↔
        ∀ text lexeme, Matches text lexeme → ¬ text <+: c :: rest) := by
  refine ⟨fun tokens h token hmem hkind => tokenize_readsToken h hmem hkind, fun c p h => ?_,
    fun tokens before c rest hplace hblank => ⟨fun token later hread => hread.isLongest, ?_⟩⟩
  · obtain ⟨tokens, before, d, rest, hplace, hblank, hscan⟩ := tokenize_fails h
    obtain ⟨-, rfl, rfl⟩ := Scan.ofChars_eq_unexpectedCharacter_iff.1 hscan
    exact ⟨tokens, before, rest, hplace, hblank, rfl⟩
  · rw [hplace.tokenize_error_iff hblank rfl, Scan.ofChars_eq_unexpectedCharacter_iff,
      and_iff_left ⟨rfl, rfl⟩, front?_eq_none_iff]

/-- A less-than sign is read in front of an ampersand, which no lexeme begins with by itself. -/
theorem tokenize_longest_of_ampersand :
    let token : Token := ⟨.operator .less, "<", ⟨1, 1⟩⟩
    Splits "<&" [] [] ['<', '&'] ∧ ReadsToken [] ['<', '&'] token ['&'] ∧
      token.IsLongest ['<', '&'] ∧ Splits "<&" [token] ['<'] ['&'] ∧
      tokenize "<&" = .error (.unexpectedCharacter '&' ⟨1, 2⟩) ∧
      ∀ text lexeme, Matches text lexeme → ¬ text <+: ['&'] := by
  intro token
  have hstart : Splits "<&" [] [] ['<', '&'] := .start
  have hscan : Scan.ofChars (.ofPrefix []) '<' ['&'] = .ok ⟨.operator .less, 1, by decide⟩ := by
    cbv
  have hread : ReadsToken [] ['<', '&'] token ['&'] := .mk (by decide) hscan
  have htext : token.text.toList = ['<'] := by decide
  have hnext : Splits "<&" [token] ['<'] ['&'] := htext ▸ hstart.token hread
  have herror : tokenize "<&" = .error (.unexpectedCharacter '&' ⟨1, 2⟩) := by cbv
  have hlongest := (tokenize_longest "<&").2.2
  exact ⟨hstart, hread, (hlongest _ _ _ _ hstart (by decide)).1 token _ hread, hnext, herror,
    (hlongest _ _ _ _ hnext (by decide)).2.1 herror⟩

end Arrow
