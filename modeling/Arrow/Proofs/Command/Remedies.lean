import Arrow.Remedy
import Arrow.Proofs.Evaluation.Outcome
import Mathlib

/-!
# Remedies and kinds of errors

The kinds of errors that have advice of their own are told by a phrase of their messages. But the
advice is chosen by the first phrase that occurs in the message, and messages quote texts of the
program. So an error gets the advice of its kind exactly when no earlier phrase occurs in the text
that it quotes (`Error.remedy_of_kind`).

No phrase reaches from the words of a message into the quoted text, or out of it: a quotation mark
stands between them, which no phrase has, or a space that no phrase has at that place
(`Quotes.occurs_eq`). And the words themselves have no phrase but that of their kind, because each
phrase has a letter which they lack.
-/

namespace Arrow

/-! ## Occurrences -/

theorem occurs_iff {phrase text : List Char} : occurs phrase text = true ↔ phrase <:+: text := by
  induction text with
  | nil => simp [occurs]
  | cons c text ih =>
    rw [occurs, Bool.or_eq_true, ih, List.isPrefixOf_iff_prefix, List.infix_cons_iff]

theorem occurs_append_left {phrase : List Char} {front : String} (behind : String)
    (h : occurs phrase front.toList) : occurs phrase (front ++ behind).toList := by
  rw [occurs_iff, String.toList_append]
  exact (occurs_iff.1 h).trans (List.prefix_append _ _).isInfix

/-- With words around a text, a phrase occurs where it does in the text itself, if it does not occur
in the words and has no part at their inner edges. -/
theorem infix_between_iff {α : Type*} {phrase front text behind : List α}
    (hfront : ¬ phrase <:+: front) (hbehind : ¬ phrase <:+: behind)
    (hinto : ∀ part, part ≠ [] → part <+: phrase → ¬ part <:+ front)
    (hout : ∀ part, part ≠ [] → part <:+ phrase → ¬ part <+: behind) :
    phrase <:+: front ++ text ++ behind ↔ phrase <:+: text := by
  constructor
  · intro h
    rw [List.append_assoc] at h
    rcases List.infix_append_iff_ne_nil.1 h with h | h | ⟨head, tail, hhead, -, rfl, hpart, -⟩
    · exact absurd h hfront
    · rcases List.infix_append_iff_ne_nil.1 h with h | h | ⟨head, tail, -, htail, rfl, -, hpart⟩
      · exact h
      · exact absurd h hbehind
      · exact absurd hpart (hout tail htail (List.suffix_append head tail))
    · exact absurd hpart (hinto head hhead (List.prefix_append head tail))
  · exact fun h => h.trans (List.infix_append front text behind)

/-! ## Letters of the phrases -/

/-- The phrases that are looked for first, `count` of them. -/
def phrasesBefore (count : ℕ) : List String :=
  (remedies.take count).map (·.1)

theorem phrasesBefore_subset (count : ℕ) : phrasesBefore count ⊆ remedies.map (·.1) :=
  List.map_subset _ (List.take_subset _ _)

/-- The letters with which the phrases begin. -/
def phraseInitials : List Char := ['E', 'U', 'C', 'S', 'M']

/-- Letters of which each phrase has one, though most words of messages have none. -/
def rareLetters : List Char := ['E', 'v', 'M']

/-- Letters of the phrases that positions, numbers and fixed names do not have. -/
def phraseLetters : List Char := phraseInitials ++ rareLetters

/-- None of the characters `marks` is in `text`. -/
def Lacks (marks : List Char) (text : String) : Prop :=
  ∀ c ∈ marks, c ∉ text.toList

instance (marks : List Char) (text : String) : Decidable (Lacks marks text) :=
  List.decidableBAll (fun c => c ∉ text.toList) marks

namespace Lacks

variable {marks others : List Char} {text rest : String}

theorem append (h : Lacks marks text) (hrest : Lacks marks rest) : Lacks marks (text ++ rest) := by
  intro c hc hmem
  rw [String.toList_append, List.mem_append] at hmem
  exact hmem.elim (h c hc) (hrest c hc)

theorem mono (h : Lacks marks text) (hsub : others ⊆ marks) : Lacks others text :=
  fun c hc => h c (hsub hc)

theorem rare (h : Lacks phraseLetters text) : Lacks rareLetters text :=
  h.mono (by decide)

theorem of_isInfix (h : Lacks marks text) (hinside : rest.toList <:+: text.toList) :
    Lacks marks rest :=
  fun c hc hmem => h c hc (List.IsInfix.subset hinside hmem)

theorem intercalate (hrest : Lacks marks rest) :
    ∀ {texts : List String}, (∀ text ∈ texts, Lacks marks text) →
      Lacks marks (rest.intercalate texts)
  | [], _ => fun _ _ => List.not_mem_nil
  | [text], h => String.intercalate_singleton ▸ h text List.mem_cons_self
  | text :: next :: texts, h => by
    obtain ⟨hhead, htail⟩ := List.forall_mem_cons.1 h
    rw [String.intercalate_cons_cons]
    exact (hhead.append hrest).append (intercalate hrest htail)

end Lacks

/-- What has none of the initials, or none of the rare letters, is not a phrase. -/
theorem phrases_letters :
    ∀ phrase ∈ remedies.map (·.1), ¬ Lacks phraseInitials phrase ∧ ¬ Lacks rareLetters phrase := by
  decide

theorem lacks_toString_nat (n : ℕ) : Lacks phraseLetters (toString n) := by
  intro c hc hmem
  have hdigit : c.isDigit :=
    Nat.isDigit_of_mem_toDigits (by decide) (by decide) (Nat.toList_repr (n := n) ▸ hmem)
  have hmark : phraseLetters.all fun mark => !mark.isDigit := by decide
  simpa [hdigit] using List.all_eq_true.1 hmark c hc

theorem lacks_toString_int (n : ℤ) : Lacks phraseLetters (toString n) := by
  cases n with
  | ofNat n => exact lacks_toString_nat n
  | negSucc n =>
    exact (by decide : Lacks phraseLetters "-").append (lacks_toString_nat (n + 1))

theorem Position.lacks_render (p : Position) : Lacks phraseLetters p.render := by
  unfold Position.render
  exact ((Lacks.append (by decide) (lacks_toString_nat _)).append (by decide)).append
    (lacks_toString_nat _)

theorem Arity.lacks_render (arity : Arity) : Lacks phraseLetters arity.render := by
  cases arity with
  | exactly count => exact lacks_toString_nat count
  | oneOf counts =>
    refine Lacks.intercalate (by decide) fun text htext => ?_
    obtain ⟨count, -, rfl⟩ := List.mem_map.1 htext
    exact lacks_toString_nat count
  | any => decide

theorem Kind.lacks_name (kind : Kind) : Lacks phraseLetters kind.name := by
  cases kind <;> decide

theorem TypeTag.lacks_name (tag : TypeTag) : Lacks phraseLetters tag.name := by
  cases tag with
  | kind kind => exact kind.lacks_name
  | any => decide

theorem Operator.lacks_lexeme (op : Operator) : Lacks phraseLetters op.lexeme := by
  cases op <;> decide

/-! ## What messages quote -/

/-- No beginning of one of the phrases is at the end of these texts. -/
def frontEdges : List String := ["'", ": "]

/-- No end of one of the phrases is at the beginning of these texts. -/
def behindEdges : List String := ["'", " expects "]

theorem frontEdges_apart : ∀ phrase ∈ remedies.map (·.1), ∀ part ∈ phrase.toList.inits,
    part ≠ [] → ∀ edge ∈ frontEdges, ¬ part <:+ edge.toList ∧ ¬ edge.toList <:+ part := by
  decide +kernel

theorem behindEdges_apart : ∀ phrase ∈ remedies.map (·.1), ∀ part ∈ phrase.toList.tails,
    part ≠ [] → ∀ edge ∈ behindEdges, ¬ part <+: edge.toList ∧ ¬ edge.toList <+: part := by
  decide +kernel

/-- A text that may stand in front of a quoted one, as far as the first `count` phrases go. -/
structure Opens (count : ℕ) (front : String) : Prop where
  lacks : ∀ phrase ∈ phrasesBefore count, ¬ phrase.toList <:+: front.toList
  edge : ∃ edge ∈ frontEdges, edge.toList <:+ front.toList

instance (count : ℕ) (front : String) : Decidable (Opens count front) :=
  decidable_of_iff _ ⟨fun h => Opens.mk h.1 h.2, fun h => And.intro h.lacks h.edge⟩

/-- A text that may stand behind a quoted one. -/
structure Closes (behind : String) : Prop where
  lacks : Lacks phraseInitials behind
  edge : ∃ edge ∈ behindEdges, edge.toList <+: behind.toList

instance (behind : String) : Decidable (Closes behind) :=
  decidable_of_iff _ ⟨fun h => Closes.mk h.1 h.2, fun h => And.intro h.lacks h.edge⟩

/-- `message` is `text` with words around it to which the first `count` phrases do not reach. -/
def Quotes (count : ℕ) (text message : String) : Prop :=
  ∃ front behind, message = front ++ text ++ behind ∧ Opens count front ∧ Closes behind

section Quotes

variable {count : ℕ} {phrase front text behind message rest : String}

theorem Opens.append (hfront : Lacks rareLetters front) (hrest : Lacks rareLetters rest)
    (hedge : ∃ edge ∈ frontEdges, edge.toList <:+ rest.toList) : Opens count (front ++ rest) where
  lacks phrase hmem :=
    mt (hfront.append hrest).of_isInfix
      (phrases_letters phrase (phrasesBefore_subset count hmem)).2
  edge := by
    obtain ⟨edge, hmem, hedge⟩ := hedge
    exact ⟨edge, hmem, String.toList_append ▸ hedge.trans (List.suffix_append _ _)⟩

theorem Opens.not_ends (h : Opens count front) (hmem : phrase ∈ phrasesBefore count)
    {part : List Char} (hne : part ≠ []) (hpart : part <+: phrase.toList) :
    ¬ part <:+ front.toList := by
  obtain ⟨edge, hmark, hedge⟩ := h.edge
  obtain ⟨hinto, hover⟩ := frontEdges_apart phrase (phrasesBefore_subset count hmem) part
    ((List.mem_inits _ _).2 hpart) hne edge hmark
  exact fun hends => (List.suffix_or_suffix_of_suffix hends hedge).elim hinto hover

theorem Closes.not_inside (h : Closes behind) (hmem : phrase ∈ phrasesBefore count) :
    ¬ phrase.toList <:+: behind.toList :=
  mt h.lacks.of_isInfix (phrases_letters phrase (phrasesBefore_subset count hmem)).1

theorem Closes.not_begins (h : Closes behind) (hmem : phrase ∈ phrasesBefore count)
    {part : List Char} (hne : part ≠ []) (hpart : part <:+ phrase.toList) :
    ¬ part <+: behind.toList := by
  obtain ⟨edge, hmark, hedge⟩ := h.edge
  obtain ⟨hout, hover⟩ := behindEdges_apart phrase (phrasesBefore_subset count hmem) part
    ((List.mem_tails _ _).2 hpart) hne edge hmark
  exact fun hbegins => (List.prefix_or_prefix_of_prefix hbegins hedge).elim hout hover

theorem Quotes.between (hfront : Opens count front) (hbehind : Closes behind) :
    Quotes count text (front ++ text ++ behind) :=
  ⟨front, behind, rfl, hfront, hbehind⟩

theorem Quotes.append_words (h : Quotes count text message) (hrest : Lacks phraseInitials rest) :
    Quotes count text (message ++ rest) := by
  obtain ⟨front, behind, rfl, hfront, hbehind⟩ := h
  obtain ⟨edge, hmem, hedge⟩ := hbehind.edge
  rw [String.append_assoc]
  exact .between hfront
    { lacks := hbehind.lacks.append hrest
      edge := ⟨edge, hmem, String.toList_append ▸ hedge.trans (List.prefix_append _ _)⟩ }

theorem Quotes.append (h : Quotes count text message) (hrest : Lacks phraseLetters rest) :
    Quotes count text (message ++ rest) :=
  h.append_words (hrest.mono (by decide))

/-- Most messages quote a text and end with the position. -/
theorem Quotes.at_position (hfront : Opens count front) (hbehind : Closes behind) (p : Position) :
    Quotes count text (front ++ text ++ behind ++ p.render) :=
  (between hfront hbehind).append p.lacks_render

/-- A message holds the phrases that the text it quotes holds. -/
theorem Quotes.occurs_eq (h : Quotes count text message) (hmem : phrase ∈ phrasesBefore count) :
    occurs phrase.toList message.toList = occurs phrase.toList text.toList := by
  obtain ⟨front, behind, rfl, hfront, hbehind⟩ := h
  rw [Bool.eq_iff_iff, occurs_iff, occurs_iff, String.toList_append, String.toList_append]
  exact infix_between_iff (hfront.lacks phrase hmem) (hbehind.not_inside hmem)
    (fun _ => hfront.not_ends hmem) fun _ => hbehind.not_begins hmem

theorem Opens.occurs_eq (h : Opens count front) (hmem : phrase ∈ phrasesBefore count) :
    occurs phrase.toList (front ++ text).toList = occurs phrase.toList text.toList := by
  have hne : phrase.toList ≠ [] := fun hnil => h.lacks phrase hmem (hnil ▸ List.nil_infix)
  rw [Bool.eq_iff_iff, occurs_iff, occurs_iff, String.toList_append, ← List.append_nil (_ ++ _)]
  exact infix_between_iff (h.lacks phrase hmem) (fun hnil => hne (List.infix_nil.1 hnil))
    (fun _ => h.not_ends hmem) fun _ hpart _ hnil => hpart (List.prefix_nil.1 hnil)

end Quotes

/-! ## The kind of an error -/

/-- How many of the phrases are looked for before the one of the error's kind. -/
def Error.rank : Error → ℕ
  | parse _ => 0
  | runtime (.undefinedVariable _ _) => 1
  | runtime (.constReassignment _ _) => 2
  | runtime (.stackOverflow _ _ _) => 3
  | runtime (.missingEntryPoint _) => 4
  | _ => remedies.length

/-- The advice that fits the kind of an error. -/
def Error.adviceOfKind : Error → String
  | parse _ => "Check the syntax near the indicated line and column."
  | runtime (.undefinedVariable _ _) => "Ensure the variable is declared before use."
  | runtime (.constReassignment _ _) => "Avoid reassigning a constant variable."
  | runtime (.stackOverflow _ _ _) =>
    "Make sure every recursive function reaches a case that returns without calling itself."
  | runtime (.missingEntryPoint _) =>
    "Declare a function `<fn> main() \x7b ... \x7d` that takes no parameters."
  | _ => "Refer to the documentation for more details."

def LexError.quoted? : LexError → Option String
  | unexpectedCharacter c _ => toString c
  | unterminatedString _ => none
  | invalidMarker text _ => text
  | numberTooLarge text _ => text

def ParseError.quoted? : ParseError → Option String
  | expected _ found _ => found
  | duplicateParameter name _ => name

def TypeFault.quoted? : TypeFault → Option String
  | unknownType name => name
  | mismatch subject _ _ => subject
  | operands _ _ _ => none
  | indexing _ _ => none
  | lengthOf _ => none

def RuntimeError.quoted? : RuntimeError → Option String
  | typeError fault _ => fault.quoted?
  | undefinedVariable name _ => name
  | undefinedFunction name _ => name
  | constReassignment name _ => name
  | missingEntryPoint _ => none
  | unknownOperator _ _ => none
  | argumentCount name _ _ _ => name
  | stackOverflow name _ _ => name
  | functionAlreadyDefined name _ => name
  | builtinRedefinition name _ => name
  | returnOutsideFunction _ => none
  | indexOutOfBounds _ _ _ => none
  | unknownProperty property _ => property
  | io failure _ => failure

/-- The text in the message of an error that the program, or for a failed write the console, is
free to choose. -/
def Error.quoted? : Error → Option String
  | lex cause => cause.quoted?
  | parse cause => cause.quoted?
  | runtime cause => cause.quoted?

namespace Error

/-- The message of an error holds an earlier phrase only within the text that it quotes. -/
def Framed (e : Error) : Prop :=
  ∀ phrase ∈ phrasesBefore e.rank,
    occurs phrase.toList e.message.toList =
      e.quoted?.any fun text => occurs phrase.toList text.toList

variable {e : Error} {text : String}

theorem framed_of_quotes (count : ℕ) (hrank : e.rank = count) (hquoted : e.quoted? = some text)
    (h : Quotes count text e.message) : e.Framed := by
  intro phrase hmem
  subst hrank
  rw [h.occurs_eq hmem, hquoted, Option.any_some]

theorem framed_of_lacks (count : ℕ) {marks : List Char} (hrank : e.rank = count)
    (hquoted : e.quoted? = none) (h : Lacks marks e.message)
    (hmarked : ∀ phrase ∈ phrasesBefore count, ¬ Lacks marks phrase) : e.Framed := by
  intro phrase hmem
  subst hrank
  rw [hquoted, Option.any_none, Bool.eq_false_iff, Ne, occurs_iff]
  exact mt h.of_isInfix (hmarked phrase hmem)

end Error

theorem LexError.framed (cause : LexError) : (Error.lex cause).Framed := by
  cases cause with
  | unexpectedCharacter c p =>
    exact Error.framed_of_quotes remedies.length rfl rfl (.at_position (by decide) (by decide) p)
  | unterminatedString p =>
    exact Error.framed_of_lacks remedies.length rfl rfl
      (.append (by decide) p.lacks_render.rare) (by decide)
  | invalidMarker text p =>
    exact Error.framed_of_quotes remedies.length rfl rfl (.at_position (by decide) (by decide) p)
  | numberTooLarge text p =>
    exact Error.framed_of_quotes remedies.length rfl rfl (.at_position (by decide) (by decide) p)

theorem RuntimeError.framed_typeError (fault : TypeFault) (p : Position) :
    (Error.runtime (.typeError fault p)).Framed := by
  have hplace : Lacks rareLetters ("Type error at " ++ p.render) :=
    .append (by decide) p.lacks_render.rare
  have hlead : Lacks rareLetters ("Type error at " ++ p.render ++ ": ") :=
    hplace.append (by decide)
  cases fault with
  | unknownType name =>
    refine Error.framed_of_quotes remedies.length rfl rfl ?_
    show Quotes _ name ("Type error at " ++ p.render ++ ": " ++ ("Unknown type '" ++ name ++ "'"))
    simp only [← String.append_assoc]
    exact .between (.append hlead (by decide) (by decide)) (by decide)
  | mismatch subject expected found =>
    refine Error.framed_of_quotes remedies.length rfl rfl ?_
    show Quotes _ subject ("Type error at " ++ p.render ++ ": " ++
      (subject ++ " expects " ++ expected.name ++ ", found " ++ found.name))
    simp only [← String.append_assoc]
    have hfront : Opens remedies.length ("Type error at " ++ p.render ++ ": ") :=
      .append hplace (by decide) (by decide)
    exact (((Quotes.between hfront (by decide)).append expected.lacks_name).append
      (by decide)).append found.lacks_name
  | operands op left right =>
    have hrender : Lacks rareLetters (TypeFault.operands op left right).render :=
      (((Lacks.append (by decide) op.lacks_lexeme.rare).append (by decide)).append
        left.lacks_name.rare).append (by decide) |>.append right.lacks_name.rare
    exact Error.framed_of_lacks remedies.length rfl rfl (hlead.append hrender) (by decide)
  | indexing target index =>
    have hrender : Lacks rareLetters (TypeFault.indexing target index).render :=
      ((Lacks.append (by decide) target.lacks_name.rare).append (by decide)).append
        index.lacks_name.rare
    exact Error.framed_of_lacks remedies.length rfl rfl (hlead.append hrender) (by decide)
  | lengthOf kind =>
    have hrender : Lacks rareLetters (TypeFault.lengthOf kind).render :=
      .append (by decide) kind.lacks_name.rare
    exact Error.framed_of_lacks remedies.length rfl rfl (hlead.append hrender) (by decide)

theorem RuntimeError.framed (cause : RuntimeError) : (Error.runtime cause).Framed := by
  cases cause with
  | typeError fault p => exact framed_typeError fault p
  | undefinedVariable name p =>
    exact Error.framed_of_quotes 1 rfl rfl (.at_position (by decide) (by decide) p)
  | undefinedFunction name p =>
    exact Error.framed_of_quotes remedies.length rfl rfl (.at_position (by decide) (by decide) p)
  | constReassignment name p =>
    exact Error.framed_of_quotes 2 rfl rfl (.at_position (by decide) (by decide) p)
  | missingEntryPoint fault =>
    -- The words in front are those of the phrase that the kind goes by.
    have hfault : Lacks ['E', 'v'] fault.render := by
      cases fault with
      | absent => decide
      | parameters count => exact .append (by decide) ((lacks_toString_nat count).mono (by decide))
    exact Error.framed_of_lacks 4 rfl rfl (.append (by decide) hfault) (by decide)
  | unknownOperator op p =>
    have hop : Lacks rareLetters ("Unknown operator '" ++ op.lexeme ++ "' at ") :=
      (Lacks.append (by decide) op.lacks_lexeme.rare).append (by decide)
    exact Error.framed_of_lacks remedies.length rfl rfl (hop.append p.lacks_render.rare) (by decide)
  | argumentCount name expected found p =>
    have hname : Quotes remedies.length name ("Function '" ++ name ++ "' expects ") :=
      .between (by decide) (by decide)
    exact Error.framed_of_quotes remedies.length rfl rfl
      (((((hname.append expected.lacks_render).append_words (by decide)).append
        (lacks_toString_nat found)).append (by decide)).append p.lacks_render)
  | stackOverflow name limit p =>
    have hname : Quotes 3 name ("Stack overflow calling '" ++ name ++ "' at ") :=
      .between (by decide) (by decide)
    exact Error.framed_of_quotes 3 rfl rfl
      ((((hname.append p.lacks_render).append_words (by decide)).append
        (lacks_toString_nat limit)).append (by decide))
  | functionAlreadyDefined name p =>
    exact Error.framed_of_quotes remedies.length rfl rfl (.at_position (by decide) (by decide) p)
  | builtinRedefinition name p =>
    exact Error.framed_of_quotes remedies.length rfl rfl (.at_position (by decide) (by decide) p)
  | returnOutsideFunction p =>
    exact Error.framed_of_lacks remedies.length rfl rfl
      (.append (by decide) p.lacks_render.rare) (by decide)
  | indexOutOfBounds index length p =>
    have hindex : Lacks rareLetters (toString index.toInt) := (lacks_toString_int _).rare
    have hlength : Lacks rareLetters (toString length) := (lacks_toString_nat _).rare
    exact Error.framed_of_lacks remedies.length rfl rfl
      (((((Lacks.append (by decide) hindex).append (by decide)).append hlength).append
        (by decide)).append p.lacks_render.rare) (by decide)
  | unknownProperty property p =>
    exact Error.framed_of_quotes remedies.length rfl rfl (.at_position (by decide) (by decide) p)
  | io failure p =>
    have hfront : Opens remedies.length ("I/O error at " ++ p.render ++ ": ") :=
      .append (.append (by decide) p.lacks_render.rare) (by decide) (by decide)
    intro phrase hmem
    exact hfront.occurs_eq hmem

theorem Error.framed (e : Error) : e.Framed := by
  cases e with
  | lex cause => exact cause.framed
  | parse cause => exact fun phrase hmem => absurd hmem List.not_mem_nil
  | runtime cause => exact cause.framed

/-! ## The advice -/

namespace Error

theorem rank_le (e : Error) : e.rank ≤ remedies.length := by
  unfold rank
  split <;> decide

/-- The message of an error begins with the phrase of its kind, if the kind has one. -/
theorem occurs_phrase (e : Error) :
    ∀ own ∈ remedies[e.rank]?, occurs own.1.toList e.message.toList := by
  intro own hown
  match e with
  | parse (.expected what found p) =>
    obtain rfl := Option.some.inj hown
    iterate 5 apply occurs_append_left
    decide
  | parse (.duplicateParameter name p) =>
    obtain rfl := Option.some.inj hown
    iterate 3 apply occurs_append_left
    decide
  | runtime (.undefinedVariable name p) =>
    obtain rfl := Option.some.inj hown
    iterate 3 apply occurs_append_left
    decide
  | runtime (.constReassignment name p) =>
    obtain rfl := Option.some.inj hown
    iterate 3 apply occurs_append_left
    decide
  | runtime (.stackOverflow name limit p) =>
    obtain rfl := Option.some.inj hown
    iterate 6 apply occurs_append_left
    decide
  | runtime (.missingEntryPoint fault) =>
    obtain rfl := Option.some.inj hown
    exact occurs_append_left _ (by decide)

theorem adviceOfKind_eq (e : Error) :
    e.adviceOfKind =
      (remedies[e.rank]?.map (·.2)).getD "Refer to the documentation for more details." := by
  cases e with
  | runtime cause => cases cause <;> rfl
  | _ => rfl

/-- No earlier phrase has the advice of the error's kind. -/
theorem advice_ne_adviceOfKind (e : Error) :
    ∀ other ∈ remedies.take e.rank, other.2 ≠ e.adviceOfKind := by
  have hdistinct : ∀ count ≤ remedies.length, ∀ other ∈ remedies.take count,
      other.2 ≠
        (remedies[count]?.map (·.2)).getD "Refer to the documentation for more details." := by
    decide +kernel
  rw [adviceOfKind_eq]
  exact hdistinct e.rank e.rank_le

/-- From the phrase of the error's kind on, the first one that occurs is that of the kind. -/
theorem find?_drop_rank (e : Error) :
    (remedies.drop e.rank).find? (fun (phrase, _) => occurs phrase.toList e.message.toList) =
      remedies[e.rank]? := by
  rcases Nat.lt_or_ge e.rank remedies.length with hlt | hge
  · have hown : remedies[e.rank]? = some remedies[e.rank] := List.getElem?_eq_getElem hlt
    rw [List.drop_eq_getElem_cons hlt, hown]
    exact List.find?_cons_of_pos (e.occurs_phrase _ hown)
  · rw [List.drop_eq_nil_of_le hge, List.getElem?_eq_none hge, List.find?_nil]

theorem remedy_eq (e : Error) :
    e.remedy =
      (((remedies.take e.rank).find? fun (phrase, _) =>
        occurs phrase.toList e.message.toList).map (·.2)).getD e.adviceOfKind := by
  have hsplit : remedies.find? (fun (phrase, _) => occurs phrase.toList e.message.toList) =
      ((remedies.take e.rank).find? fun (phrase, _) =>
        occurs phrase.toList e.message.toList).or remedies[e.rank]? := by
    rw [← e.find?_drop_rank, ← List.find?_append, List.take_append_drop]
  unfold Error.remedy remedyFor
  rw [hsplit, adviceOfKind_eq]
  generalize (remedies.take e.rank).find? _ = other
  cases other with
  | some other => rfl
  | none => cases remedies[e.rank]? <;> rfl

end Error

end Arrow
