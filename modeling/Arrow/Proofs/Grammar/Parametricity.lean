import Arrow.Grammar.Program
import Arrow.Proofs.Grammar.Moved

/-!
# Reading does not look at positions

Two lists of tokens that differ in positions only are read alike: into programs that are moved
copies of each other, or to errors that are (`parse_moved`). The positions of nodes are positions of
tokens in front of the end of input, whose own position is found in errors only; so the two are
related separately, by `R` and by `E`. How the input ends, and what stands behind that, is not
looked at, so the tokens need to be related up to there only (`parse_movedToEnd`).
-/

namespace Arrow

variable {R E : Position → Position → Prop}

/--
The tokens differ in positions only. The end of input is the last of them, and it alone; its
positions are related by `E` and all others by `R`.
-/
inductive Token.AllMoved (R E : Position → Position → Prop) : List Token → List Token → Prop
  | last {text text' : String} {p q : Position} (hp : E p q) :
    Token.AllMoved R E [⟨.endOfInput, text, p⟩] [⟨.endOfInput, text', q⟩]
  | cons {kind : TokenKind} {text : String} {p q : Position} {ts us : List Token}
    (hkind : kind ≠ .endOfInput) (hp : R p q) (hrest : Token.AllMoved R E ts us) :
    Token.AllMoved R E (⟨kind, text, p⟩ :: ts) (⟨kind, text, q⟩ :: us)

/-- The input ends in front of the tokens; the errors that say so are at `p`. -/
inductive Token.AtEnd : List Token → Position → Prop
  | nil : Token.AtEnd [] .unknown
  | endOfInput {text : String} {p : Position} {later : List Token} :
    Token.AtEnd (⟨.endOfInput, text, p⟩ :: later) p

/--
Up to where the input ends the tokens differ in positions only. The positions where it ends are
related by `E` and all others by `R`.
-/
inductive Token.MovedToEnd (R E : Position → Position → Prop) : List Token → List Token → Prop
  | last {ts us : List Token} {p q : Position} (hts : Token.AtEnd ts p) (hus : Token.AtEnd us q)
    (hp : E p q) : Token.MovedToEnd R E ts us
  | cons {kind : TokenKind} {text : String} {p q : Position} {ts us : List Token}
    (hkind : kind ≠ .endOfInput) (hp : R p q) (hrest : Token.MovedToEnd R E ts us) :
    Token.MovedToEnd R E (⟨kind, text, p⟩ :: ts) (⟨kind, text, q⟩ :: us)

theorem Token.AllMoved.movedToEnd {ts us : List Token} (h : Token.AllMoved R E ts us) :
    Token.MovedToEnd R E ts us := by
  induction h with
  | last hp => exact .last .endOfInput .endOfInput hp
  | cons hkind hp _ ih => exact .cons hkind hp ih

/-- The errors differ in positions only, which are related by `E` if the end of input was found. -/
inductive ParseError.MovedToEnd (R E : Position → Position → Prop) :
    ParseError → ParseError → Prop
  | found {what : Expectation} {found : String} {p q : Position} (hfound : found ≠ "end of input")
    (hp : R p q) : ParseError.MovedToEnd R E (.expected what found p) (.expected what found q)
  | endOfInput {what : Expectation} {p q : Position} (hp : E p q) :
    ParseError.MovedToEnd R E (.expected what "end of input" p) (.expected what "end of input" q)
  | duplicateParameter {name : String} {p q : Position} (hp : R p q) :
    ParseError.MovedToEnd R E (.duplicateParameter name p) (.duplicateParameter name q)

theorem ParseError.MovedToEnd.moved {cause other : ParseError} (h : cause.MovedToEnd R E other) :
    cause.Moved (fun p q => R p q ∨ E p q) other := by
  cases h with
  | found _ hp => exact ⟨fun _ => rfl, .some (.inl hp)⟩
  | endOfInput hp => exact ⟨fun _ => rfl, .some (.inr hp)⟩
  | duplicateParameter hp => exact ⟨fun _ => rfl, .some (.inl hp)⟩

/-- How a message refers to any other token is in quotes. -/
theorem Token.describe_ne_endOfInput {kind : TokenKind} {text : String} {p : Position}
    (h : kind ≠ .endOfInput) : describe ⟨kind, text, p⟩ ≠ "end of input" := by
  unfold describe
  rw [if_neg h]
  intro heq
  change "'" ++ text ++ "'" = "end of input" at heq
  have hfirst := congrArg String.toList heq
  rw [String.toList_append, String.toList_append] at hfirst
  exact absurd (List.cons.inj hfirst).1 (by decide)

/-! ## Replies -/

/-- Both have read related values and left moved tokens, or both have stopped with moved errors. -/
inductive Reply.Moved {α β : Type} {a b : Nat} (R E : Position → Position → Prop)
    (V : α → β → Prop) : Reply α a → Reply β b → Prop
  | ok {value : α} {other : β} {ts us : List Token} {hts : ts.length < a} {hus : us.length < b}
    (hvalue : V value other) (hrest : Token.MovedToEnd R E ts us) :
    Reply.Moved R E V (.ok value ts hts) (.ok other us hus)
  | error {cause other : ParseError} {ts us : List Token}
    (hcause : cause.MovedToEnd R E other) :
    Reply.Moved R E V (.error cause ts) (.error other us)

namespace Reply

variable {α β α' β' : Type} {a b a' b' : Nat} {V : α → β → Prop} {W : α' → β' → Prop}
  {r : Reply α a} {r' : Reply β b} {ts us : List Token}

theorem Moved.andThen {f : α → (rest : List Token) → rest.length < a → Reply α' a'}
    {g : β → (rest : List Token) → rest.length < b → Reply β' b'} (h : r.Moved R E V r')
    (hnext : ∀ value other ts us (hts : ts.length < a) (hus : us.length < b), V value other →
      Token.MovedToEnd R E ts us → (f value ts hts).Moved R E W (g other us hus)) :
    (r.andThen f).Moved R E W (r'.andThen g) := by
  cases h with
  | ok hvalue hrest => exact hnext _ _ _ _ _ _ hvalue hrest
  | error hcause => exact .error hcause

theorem Moved.upTo (h : r.Moved R E V r') (ha : a ≤ a') (hb : b ≤ b') :
    (r.upTo ha).Moved R E V (r'.upTo hb) := by
  cases h with
  | ok hvalue hrest => exact .ok hvalue hrest
  | error hcause => exact .error hcause

theorem Moved.map {f : α → α'} {g : β → β'} (h : r.Moved R E V r')
    (hmap : ∀ value other, V value other → W (f value) (g other)) :
    (r.map f).Moved R E W (r'.map g) := by
  cases h with
  | ok hvalue hrest => exact .ok (hmap _ _ hvalue) hrest
  | error hcause => exact .error hcause

theorem unexpected_moved (what : Expectation) (h : Token.MovedToEnd R E ts us) :
    (unexpected what ts).MovedToEnd R E (unexpected what us) := by
  cases h with
  | last hts hus hp => cases hts <;> cases hus <;> exact .endOfInput hp
  | cons hkind hp _ => exact .found (Token.describe_ne_endOfInput hkind) hp

theorem before_moved (what : Expectation) (h : Token.MovedToEnd R E ts us) :
    (before what ts : Reply α a).Moved R E V (before what us : Reply β b) :=
  .error (unexpected_moved what h)

theorem behind_moved (what : Expectation) (h : Token.MovedToEnd R E ts us) :
    (behind what ts : Reply α a).Moved R E V (behind what us : Reply β b) :=
  .error (unexpected_moved what h)

theorem itemsUntil_moved (closing : Char) {bound bound' : Nat} {ts us : List Token}
    {item : (ts : List Token) → ts.length ≤ bound → Reply α ts.length}
    {item' : (us : List Token) → us.length ≤ bound' → Reply β us.length}
    (hitem : ∀ ts us (hts : ts.length ≤ bound) (hus : us.length ≤ bound'),
      Token.MovedToEnd R E ts us → (item ts hts).Moved R E V (item' us hus))
    (hts : ts.length ≤ bound) (hus : us.length ≤ bound') (h : Token.MovedToEnd R E ts us) :
    (itemsUntil closing bound item ts hts).Moved R E (List.Forall₂ V)
      (itemsUntil closing bound' item' us hus) := by
  rw [itemsUntil, itemsUntil]
  refine (hitem ts us hts hus h).andThen fun first first' mid mid' hlt hlt' hfirst hmid => ?_
  have hend := behind_moved (V := List.Forall₂ V) (a := ts.length) (b := us.length)
    (.afterItem closing) hmid
  cases hmid with
  | last hts hus _ => cases hts <;> cases hus <;> exact hend
  | @cons kind text p q rest rest' _ _ hrest =>
    have hshorter : rest.length < ts.length := Nat.lt_of_succ_lt hlt
    dsimp only
    split
    · exact .upTo (.map (itemsUntil_moved closing hitem _ _ hrest) fun _ _ => .cons hfirst) _ _
    · split
      · exact .ok (.cons hfirst .nil) hrest
      · exact hend
termination_by ts.length

theorem items_moved (closing : Char)
    {item : (rest : List Token) → rest.length ≤ ts.length → Reply α rest.length}
    {item' : (rest : List Token) → rest.length ≤ us.length → Reply β rest.length}
    (hitem : ∀ mid mid' (hmid : mid.length ≤ ts.length) (hmid' : mid'.length ≤ us.length),
      Token.MovedToEnd R E mid mid' → (item mid hmid).Moved R E V (item' mid' hmid'))
    (h : Token.MovedToEnd R E ts us) :
    (items closing ts item).Moved R E (List.Forall₂ V) (items closing us item') := by
  have huntil := itemsUntil_moved closing hitem (Nat.le_refl _) (Nat.le_refl _) h
  cases h with
  | last hts hus _ => cases hts <;> cases hus <;> exact huntil
  | cons _ _ hrest =>
    unfold items
    dsimp only
    split
    · exact .ok .nil hrest
    · exact huntil

end Reply

namespace Grammar

variable {ts us : List Token} {p : Position}

/-! ## Pieces -/

/-- The names are the same and their positions related. -/
def NameMoved (R : Position → Position → Prop) (name other : String × Position) : Prop :=
  name.1 = other.1 ∧ R name.2 other.2

theorem startsWith_of_atEnd (kind : TokenKind) (hkind : kind ≠ .endOfInput)
    (h : Token.AtEnd ts p) : startsWith kind ts = false := by
  cases h with
  | nil => rfl
  | endOfInput => exact decide_eq_false hkind.symm

theorem startsWith_moved (kind : TokenKind) (hkind : kind ≠ .endOfInput)
    (h : Token.MovedToEnd R E ts us) : startsWith kind ts = startsWith kind us := by
  cases h with
  | last hts hus _ => rw [startsWith_of_atEnd kind hkind hts, startsWith_of_atEnd kind hkind hus]
  | cons _ _ _ => rfl

theorem mark_moved (c : Char) (h : Token.MovedToEnd R E ts us) :
    (mark c ts).Moved R E R (mark c us) := by
  have hother := Reply.behind_moved (V := R) (a := ts.length) (b := us.length) (.punctuation c) h
  cases h with
  | last hts hus _ => cases hts <;> cases hus <;> exact hother
  | cons _ hp hrest =>
    unfold mark
    dsimp only
    split
    · exact .ok hp hrest
    · exact hother

theorem operator_moved (op : Operator) (h : Token.MovedToEnd R E ts us) :
    (operator op ts).Moved R E R (operator op us) := by
  have hother := Reply.behind_moved (V := R) (a := ts.length) (b := us.length) (.operator op) h
  cases h with
  | last hts hus _ => cases hts <;> cases hus <;> exact hother
  | cons _ hp hrest =>
    unfold operator
    dsimp only
    split
    · exact .ok hp hrest
    · exact hother

theorem identifier_moved (h : Token.MovedToEnd R E ts us) :
    (identifier ts).Moved R E (NameMoved R) (identifier us) := by
  have hother := Reply.behind_moved (V := NameMoved R) (a := ts.length) (b := us.length)
    .identifier h
  cases h with
  | last hts hus _ => cases hts <;> cases hus <;> exact hother
  | @cons kind _ _ _ _ _ _ hp hrest =>
    cases kind with
    | identifier name => exact .ok ⟨rfl, hp⟩ hrest
    | _ => exact hother

theorem bindingName_moved (h : Token.MovedToEnd R E ts us) :
    (bindingName ts).Moved R E (NameMoved R) (bindingName us) := by
  have hother := Reply.behind_moved (V := NameMoved R) (a := ts.length) (b := us.length)
    .identifier h
  have hword := Reply.before_moved (V := NameMoved R) (a := ts.length) (b := us.length)
    .variableName h
  cases h with
  | last hts hus _ => cases hts <;> cases hus <;> exact hother
  | @cons kind _ _ _ _ _ _ hp hrest =>
    cases kind with
    | identifier name =>
      unfold bindingName
      dsimp only
      split
      · exact hword
      · exact .ok ⟨rfl, hp⟩ hrest
    | _ => exact hother

theorem declaredType_moved (h : Token.MovedToEnd R E ts us) :
    (declaredType ts).Moved R E (DeclaredType.Moved R) (declaredType us) := by
  refine (operator_moved _ h).andThen fun _ _ _ _ _ _ _ h => ?_
  refine (identifier_moved h).andThen ?_
  rintro ⟨word, p⟩ ⟨_, q⟩ ts us _ _ ⟨rfl, hp⟩ h
  dsimp only
  split
  · refine (identifier_moved h).andThen ?_
    rintro ⟨name, p⟩ ⟨_, q⟩ ts us _ _ ⟨rfl, hp⟩ h
    exact (operator_moved _ h).andThen fun _ _ _ _ _ _ _ h => .ok ⟨rfl, rfl, hp⟩ h
  · exact (operator_moved _ h).andThen fun _ _ _ _ _ _ _ h => .ok ⟨rfl, rfl, hp⟩ h

/-! ## Expressions -/

theorem allMoved_of_forall₂ {exprs exprs' : List Expr}
    (h : List.Forall₂ (Expr.Moved R) exprs exprs') : Expr.AllMoved R exprs exprs' := by
  induction h with
  | nil => exact .nil
  | cons h _ ih => exact .cons h ih

/-- The keys are the same and their values moved. -/
def FieldMoved (R : Position → Position → Prop) (field other : String × Expr) : Prop :=
  field.1 = other.1 ∧ field.2.Moved R other.2

theorem fieldsMoved_of_forall₂ {fields fields' : List (String × Expr)}
    (h : List.Forall₂ (FieldMoved R) fields fields') : Expr.FieldsMoved R fields fields' := by
  induction h with
  | nil => exact .nil
  | @cons field field' _ _ h _ ih =>
    obtain ⟨key, expr⟩ := field
    obtain ⟨_, expr'⟩ := field'
    obtain ⟨rfl, hexpr⟩ := h
    exact .cons hexpr ih

/-!
The recursion is that of the routines, with their measure. What a routine does when the next token
is none that it looks for (`hend`, `hother`) is settled in front, while both lists are whole.
-/

mutual

theorem expression_moved {ts us : List Token} (h : Token.MovedToEnd R E ts us) :
    (expression ts).Moved R E (Expr.Moved R) (expression us) := by
  rw [expression, expression]
  exact (unary_moved h).andThen fun _ _ _ _ _ _ hleft h => (chain_moved hleft h).upTo _ _
termination_by 4 * ts.length + 3

theorem chain_moved {ts us : List Token} {left left' : Expr} (hleft : left.Moved R left')
    (h : Token.MovedToEnd R E ts us) :
    (chain left ts).Moved R E (Expr.Moved R) (chain left' us) := by
  have hend : (Reply.ok left ts (Reply.length_lt ts)).Moved R E (Expr.Moved R)
    (Reply.ok left' us (Reply.length_lt us)) := .ok hleft h
  rw [chain.eq_def left, chain.eq_def left']
  cases h with
  | last hts hus _ => cases hts <;> cases hus <;> exact hend
  | @cons kind _ _ _ ts us _ hp hrest =>
    cases kind with
    | operator op =>
      dsimp only
      split
      · exact (unary_moved hrest).andThen fun _ _ _ _ hlt _ hright h =>
          (chain_moved (.binary hleft hright hp) h).upTo _ _
      · exact hend
    | _ => exact hend
termination_by 4 * ts.length + 3

theorem unary_moved {ts us : List Token} (h : Token.MovedToEnd R E ts us) :
    (unary ts).Moved R E (Expr.Moved R) (unary us) := by
  have hother : Reply.Moved R E (Expr.Moved R)
      ((primary ts).andThen fun target rest h => (selections target rest).upTo h)
      ((primary us).andThen fun target rest h => (selections target rest).upTo h) :=
    (primary_moved h).andThen fun _ _ _ _ _ _ htarget h => (selections_moved htarget h).upTo _ _
  rw [unary.eq_def ts, unary.eq_def us]
  cases h with
  | last hts hus _ => cases hts <;> cases hus <;> exact hother
  | @cons kind _ _ _ ts us _ hp hrest =>
    cases kind with
    | operator op =>
      cases op with
      | not => exact .upTo (.map (unary_moved hrest) fun _ _ hoperand => .not hoperand hp) _ _
      | _ => exact hother
    | _ => exact hother
termination_by 4 * ts.length + 2

theorem selections_moved {ts us : List Token} {target target' : Expr}
    (htarget : target.Moved R target') (h : Token.MovedToEnd R E ts us) :
    (selections target ts).Moved R E (Expr.Moved R) (selections target' us) := by
  have hend : (Reply.ok target ts (Reply.length_lt ts)).Moved R E (Expr.Moved R)
    (Reply.ok target' us (Reply.length_lt us)) := .ok htarget h
  rw [selections.eq_def target, selections.eq_def target']
  cases h with
  | last hts hus _ => cases hts <;> cases hus <;> exact hend
  | @cons kind _ _ _ ts us _ hp hrest =>
    cases kind with
    | punctuation c =>
      by_cases hopen : c = '['
      · subst hopen
        refine (expression_moved hrest).andThen fun _ _ _ _ _ _ hindex h => ?_
        refine (mark_moved _ h).andThen fun _ _ _ _ _ _ _ h => ?_
        exact (selections_moved (.index htarget hindex hp) h).upTo _ _
      · by_cases hdot : c = '.'
        · subst hdot
          refine (identifier_moved hrest).andThen ?_
          rintro ⟨property, p⟩ ⟨_, q⟩ ts us _ _ ⟨rfl, hp⟩ h
          exact (selections_moved (.member htarget hp) h).upTo _ _
        · simpa [hopen, hdot] using hend
    | _ => exact hend
termination_by 4 * ts.length + 3

theorem primary_moved {ts us : List Token} (h : Token.MovedToEnd R E ts us) :
    (primary ts).Moved R E (Expr.Moved R) (primary us) := by
  have hother := Reply.behind_moved (V := Expr.Moved R) (a := ts.length) (b := us.length)
    .expression h
  rw [primary.eq_def ts, primary.eq_def us]
  cases h with
  | last hts hus _ => cases hts <;> cases hus <;> exact hother
  | @cons kind _ p q ts us _ hp hrest =>
    cases kind with
    | number value =>
      cases value with
      | integer n => exact .ok (.literal hp) hrest
      | float x => exact .ok (.literal hp) hrest
    | text content => exact .ok (.literal hp) hrest
    | identifier name =>
      dsimp only
      cases literalWord? name with
      | some value => exact .ok (.literal hp) hrest
      | none =>
        have hvar : Reply.Moved R E (Expr.Moved R)
          (Reply.ok (.var name p) ts (Reply.length_lt ts))
          (Reply.ok (.var name q) us (Reply.length_lt us)) := .ok (.var hp) hrest
        cases hrest with
        | last hts hus _ => cases hts <;> cases hus <;> exact hvar
        | @cons kind _ _ _ ts us _ _ hrest =>
          cases kind with
          | punctuation c =>
            by_cases hopen : c = '('
            · subst hopen
              have hargs := Reply.items_moved ')'
                (fun _ _ _ _ h => expression_moved h) hrest
              exact .upTo (.map hargs fun _ _ h => .call (allMoved_of_forall₂ h) hp) _ _
            · simpa [hopen] using hvar
          | _ => exact hvar
    | punctuation c =>
      by_cases hparenthesis : c = '('
      · subst hparenthesis
        refine (expression_moved hrest).andThen fun _ _ _ _ _ _ hvalue h => ?_
        exact (mark_moved _ h).andThen fun _ _ _ _ _ _ _ h => .ok hvalue h
      · by_cases hbracket : c = '['
        · subst hbracket
          have helements := Reply.items_moved ']'
            (fun _ _ _ _ h => expression_moved h) hrest
          exact .upTo (.map helements fun _ _ h => .array (allMoved_of_forall₂ h) hp) _ _
        · by_cases hbrace : c = '\x7b'
          · subst hbrace
            have hfields := Reply.items_moved '\x7d'
              (fun _ _ _ _ h => field_moved h) hrest
            exact .upTo (.map hfields fun _ _ h => .object (fieldsMoved_of_forall₂ h) hp) _ _
          · simpa [hparenthesis, hbracket, hbrace] using hother
    | _ => exact hother
termination_by 4 * ts.length

theorem field_moved {ts us : List Token} (h : Token.MovedToEnd R E ts us) :
    (field ts).Moved R E (FieldMoved R) (field us) := by
  have hother := Reply.behind_moved (V := FieldMoved R) (a := ts.length) (b := us.length)
    .propertyName h
  rw [field.eq_def ts, field.eq_def us]
  cases h with
  | last hts hus _ => cases hts <;> cases hus <;> exact hother
  | @cons kind _ _ _ ts us _ _ hrest =>
    cases kind with
    | identifier key => exact fieldValue_moved key hrest
    | text key => exact fieldValue_moved key hrest
    | _ => exact hother
termination_by 4 * ts.length

theorem fieldValue_moved {ts us : List Token} (key : String) (h : Token.MovedToEnd R E ts us) :
    (fieldValue key ts).Moved R E (FieldMoved R) (fieldValue key us) := by
  rw [fieldValue, fieldValue]
  refine (mark_moved _ h).andThen fun _ _ _ _ _ _ _ h => ?_
  exact .upTo (.map (expression_moved h) fun _ _ hvalue => ⟨rfl, hvalue⟩) _ _
termination_by 4 * ts.length

end

/-! ## Declarations -/

theorem wordType_moved (type : Option String) (kind : Mutability) {p q : Position} (hp : R p q) :
    Option.Rel (DeclaredType.Moved R) (wordType type kind p) (wordType type kind q) := by
  cases type with
  | none => exact .none
  | some name => exact .some ⟨rfl, rfl, hp⟩

theorem settled_moved (kind : Mutability) {type type' : Option DeclaredType}
    (h : Option.Rel (DeclaredType.Moved R) type type') :
    settled kind type = settled kind type' := by
  cases h with
  | none => rfl
  | some h =>
    unfold settled
    rw [Option.any_some, Option.any_some, h.constant]

theorem optionalType_moved {known known' : Option DeclaredType} (what : Expectation)
    (hknown : Option.Rel (DeclaredType.Moved R) known known') (h : Token.MovedToEnd R E ts us) :
    (optionalType known what ts).Moved R E (Option.Rel (DeclaredType.Moved R))
      (optionalType known' what us) := by
  unfold optionalType
  rw [startsWith_moved (.operator .typeOpen) nofun h, optionRel_isSome hknown]
  split
  · split
    · exact Reply.before_moved _ h
    · exact .upTo (.map (declaredType_moved h) fun _ _ => .some) _ _
  · exact .ok hknown h

theorem declaration_moved {p q : Position} (kind : Mutability) (type : Option String)
    (hp : R p q) (h : Token.MovedToEnd R E ts us) :
    (declaration p kind type ts).Moved R E (Statement.Moved R) (declaration q kind type us) := by
  refine (bindingName_moved h).andThen ?_
  rintro ⟨name, _⟩ ⟨_, _⟩ ts us _ _ ⟨rfl, _⟩ h
  refine (optionalType_moved _ (wordType_moved type kind hp) h).andThen ?_
  intro type type' ts us _ _ htype h
  have habsent : Statement.Moved R
      (.declaration (settled kind type') name type (.literal .null p) p)
      (.declaration (settled kind type') name type' (.literal .null q) q) :=
    .declaration htype (.literal hp) hp
  dsimp only
  rw [settled_moved kind htype]
  cases h with
  | last hts hus hp =>
    have hrest : Token.MovedToEnd R E _ _ := .last hts hus hp
    cases hts <;> cases hus <;> exact .ok habsent hrest
  | @cons next _ _ _ _ _ hnext hp' hrest =>
    cases next with
    | operator op =>
      cases op with
      | assign =>
        exact .upTo (.map (expression_moved hrest) fun _ _ hinit => .declaration htype hinit hp) _ _
      | _ => exact .ok habsent (.cons hnext hp' hrest)
    | _ => exact .ok habsent (.cons hnext hp' hrest)

theorem parameterName_moved (kind : Mutability) {known known' : Option DeclaredType}
    (hknown : Option.Rel (DeclaredType.Moved R) known known') (h : Token.MovedToEnd R E ts us) :
    (parameter.parameterName kind known ts).Moved R E (Parameter.Moved R)
      (parameter.parameterName kind known' us) := by
  refine (bindingName_moved h).andThen ?_
  rintro ⟨name, p⟩ ⟨_, q⟩ ts us _ _ ⟨rfl, hp⟩ h
  refine (optionalType_moved _ hknown h).andThen fun type type' _ _ _ _ htype h => ?_
  exact .ok ⟨rfl, htype, settled_moved kind htype, hp⟩ h

theorem parameter_moved (h : Token.MovedToEnd R E ts us) :
    (parameter ts).Moved R E (Parameter.Moved R) (parameter us) := by
  have hplain := parameterName_moved .var .none h
  cases h with
  | last hts hus _ => cases hts <;> cases hus <;> exact hplain
  | @cons kind _ _ _ _ _ _ hp hrest =>
    cases kind with
    | keyword word =>
      cases word with
      | const type =>
        exact (parameterName_moved .const (wordType_moved type .const hp) hrest).upTo
          (Reply.length_le _) (Reply.length_le _)
      | var type =>
        exact (parameterName_moved .var (wordType_moved type .var hp) hrest).upTo
          (Reply.length_le _) (Reply.length_le _)
      | _ => exact hplain
    | _ => exact hplain

theorem repeated?_moved {params params' : List Parameter}
    (h : List.Forall₂ (Parameter.Moved R) params params') (seen : List String) :
    Option.Rel (Parameter.Moved R) (repeated? seen params) (repeated? seen params') := by
  induction h generalizing seen with
  | nil => exact .none
  | @cons param param' _ _ hparam _ ih =>
    unfold repeated?
    rw [hparam.name]
    split
    · exact .some hparam
    · exact ih _

structure Header.Moved (R : Position → Position → Prop) (head other : Header) : Prop where
  name : head.name = other.name
  params : List.Forall₂ (Parameter.Moved R) head.params other.params
  returnType : Option.Rel (DeclaredType.Moved R) head.returnType other.returnType

theorem header_moved {p q : Position} (type : Option String) (hp : R p q)
    (h : Token.MovedToEnd R E ts us) :
    (header p type ts).Moved R E (Header.Moved R) (header q type us) := by
  refine (identifier_moved h).andThen ?_
  rintro ⟨name, _⟩ ⟨_, _⟩ ts us _ _ ⟨rfl, _⟩ h
  refine (mark_moved _ h).andThen fun _ _ _ _ _ _ _ h => ?_
  refine (Reply.items_moved ')' (fun _ _ _ _ h => parameter_moved h) h).andThen ?_
  intro params params' ts us _ _ hparams h
  have hrepeated := repeated?_moved hparams []
  dsimp only
  generalize repeated? [] params = param?, repeated? [] params' = param?' at hrepeated ⊢
  cases hrepeated with
  | @some param param' hparam =>
    dsimp only
    rw [hparam.name]
    exact .error (.duplicateParameter hparam.position)
  | none =>
    refine (optionalType_moved _ (wordType_moved type .var hp) h).andThen ?_
    exact fun _ _ _ _ _ _ htype h => .ok ⟨rfl, hparams, htype⟩ h

/-! ## Statements -/

theorem skipArrow_moved (h : Token.MovedToEnd R E ts us) :
    Token.MovedToEnd R E (skipArrow ts) (skipArrow us) := by
  unfold skipArrow
  rw [startsWith_moved (.keyword .arrow) nofun h]
  split
  case isTrue hstart =>
    cases h with
    | last _ hus _ =>
      rw [startsWith_of_atEnd (.keyword .arrow) nofun hus] at hstart
      exact nomatch hstart
    | cons _ _ hrest => exact hrest
  case isFalse => exact h

theorem returned_moved {p q : Position} (hp : R p q) (h : Token.MovedToEnd R E ts us) :
    (returned p ts).Moved R E (Statement.Moved R) (returned q us) := by
  have hends : (ts.isEmpty || startsWith (.punctuation '\x7d') ts || startsWith .endOfInput ts) =
      (us.isEmpty || startsWith (.punctuation '\x7d') us || startsWith .endOfInput us) := by
    cases h with
    | last hts hus _ => cases hts <;> cases hus <;> rfl
    | cons _ _ _ => rfl
  unfold returned
  rw [hends]
  split
  · exact .ok (.returnValue (.literal hp) hp) h
  · exact .upTo (.map (expression_moved h) fun _ _ hvalue => .returnValue hvalue hp) _ _

theorem named_moved {p q : Position} (hp : R p q) {text : String} {kind : TokenKind}
    (hkind : kind ≠ .endOfInput) (hrest : Token.MovedToEnd R E ts us) :
    (named p (⟨kind, text, p⟩ :: ts)).Moved R E (Statement.Moved R)
      (named q (⟨kind, text, q⟩ :: us)) := by
  have h : Token.MovedToEnd R E (⟨kind, text, p⟩ :: ts) (⟨kind, text, q⟩ :: us) :=
    .cons hkind hp hrest
  have hother : Reply.Moved R E (Statement.Moved R)
      (Reply.error (Reply.unexpected .afterName ts) (⟨kind, text, p⟩ :: ts) :
        Reply Statement (ts.length + 1))
      (Reply.error (Reply.unexpected .afterName us) (⟨kind, text, q⟩ :: us) :
        Reply Statement (us.length + 1)) := .error (Reply.unexpected_moved _ hrest)
  unfold named
  cases hrest with
  | last hts hus _ => cases hts <;> cases hus <;> exact hother
  | @cons next _ _ _ ts us _ _ hrest =>
    cases next with
    | operator op =>
      cases op with
      | typeOpen => exact declaration_moved .var none hp h
      | assign =>
        refine (bindingName_moved h).andThen ?_
        rintro ⟨name, p⟩ ⟨_, q⟩ ts us _ _ ⟨rfl, hp⟩ h
        refine (operator_moved _ h).andThen fun _ _ _ _ _ _ _ h => ?_
        exact .upTo (.map (expression_moved h) fun _ _ hvalue => .assignment hvalue hp) _ _
      | _ => exact hother
    | punctuation c =>
      by_cases hopen : c = '('
      · subst hopen
        exact .map (expression_moved h) fun _ _ hexpr => .expression hexpr hp
      · simpa [hopen] using hother
    | _ => exact hother

def BranchMoved (R : Position → Position → Prop) (branch other : Branch) : Prop :=
  branch.condition.Moved R other.condition ∧ Statement.AllMoved R branch.body other.body

def BranchesMoved (R : Position → Position → Prop)
    (branches other : List Branch × Option (List Statement)) : Prop :=
  Statement.BranchesMoved R branches.1 other.1 ∧ Statement.OtherwiseMoved R branches.2 other.2

mutual

theorem statement_moved {ts us : List Token} (h : Token.MovedToEnd R E ts us) :
    (statement ts).Moved R E (Statement.Moved R) (statement us) := by
  have hother := Reply.before_moved (V := Statement.Moved R) (a := ts.length) (b := us.length)
    .statement h
  rw [statement.eq_def ts, statement.eq_def us]
  cases h with
  | last hts hus _ => cases hts <;> cases hus <;> exact hother
  | @cons kind text p q ts us hkind hp hrest =>
    cases kind with
    | keyword word =>
      cases word with
      | var type => exact (declaration_moved .var type hp hrest).upTo _ _
      | const type => exact (declaration_moved .const type hp hrest).upTo _ _
      | fn type =>
        refine (header_moved type hp hrest).andThen fun head head' ts us _ _ hhead h => ?_
        refine .upTo (.map (block_moved h) fun body body' hbody => ?_) _ _
        exact .function (.mk ⟨hhead.name, hhead.params, hhead.returnType, hp⟩ hbody)
      | arrow => exact returned_moved hp hrest
      | ifWord => exact conditional_moved hp hrest
      | whileWord => exact whileLoop_moved hp hrest
      | forWord => exact forLoop_moved hp hrest
      | _ => exact hother
    | identifier name => exact named_moved hp hkind hrest
    | _ => exact hother
termination_by 4 * ts.length + 2

theorem block_moved {ts us : List Token} (h : Token.MovedToEnd R E ts us) :
    (block ts).Moved R E (Statement.AllMoved R) (block us) := by
  rw [block, block]
  exact (mark_moved _ h).andThen fun _ _ _ _ _ _ _ h => (statements_moved h).upTo _ _
termination_by 4 * ts.length

theorem statements_moved {ts us : List Token} (h : Token.MovedToEnd R E ts us) :
    (statements ts).Moved R E (Statement.AllMoved R) (statements us) := by
  have hend := Reply.before_moved (V := Statement.AllMoved R) (a := ts.length) (b := us.length)
    (.punctuation '\x7d') h
  have hmore : Reply.Moved R E (Statement.AllMoved R)
      ((statement ts).andThen fun first rest h =>
        ((statements rest).map (first :: ·)).upTo (Nat.le_of_lt h))
      ((statement us).andThen fun first rest h =>
        ((statements rest).map (first :: ·)).upTo (Nat.le_of_lt h)) := by
    refine (statement_moved h).andThen fun _ _ _ _ _ _ hfirst h => ?_
    exact .upTo (.map (statements_moved h) fun _ _ hothers => .cons hfirst hothers) _ _
  rw [statements.eq_def ts, statements.eq_def us]
  cases h with
  | last hts hus _ => cases hts <;> cases hus <;> exact hend
  | @cons kind _ _ _ ts us hkind _ hrest =>
    cases kind with
    | punctuation c =>
      by_cases hclosing : c = '\x7d'
      · subst hclosing
        exact .ok .nil hrest
      · simpa [hclosing] using hmore
    | endOfInput => exact absurd rfl hkind
    | _ => exact hmore
termination_by 4 * ts.length + 3

theorem branch_moved {ts us : List Token} (h : Token.MovedToEnd R E ts us) :
    (branch ts).Moved R E (BranchMoved R) (branch us) := by
  rw [branch, branch]
  have := length_skipArrow_le ts
  refine (expression_moved (skipArrow_moved h)).andThen fun _ _ _ _ _ _ hcondition h => ?_
  exact .upTo (.map (block_moved h) fun _ _ hbody => ⟨hcondition, hbody⟩) _ _
termination_by 4 * ts.length + 1

theorem otherBranches_moved {ts us : List Token} (h : Token.MovedToEnd R E ts us) :
    (otherBranches ts).Moved R E (BranchesMoved R) (otherBranches us) := by
  have hend : (Reply.ok ([], none) ts (Reply.length_lt ts)).Moved R E (BranchesMoved R)
    (Reply.ok ([], none) us (Reply.length_lt us)) := .ok ⟨.nil, .none⟩ h
  rw [otherBranches.eq_def ts, otherBranches.eq_def us]
  cases h with
  | last hts hus _ => cases hts <;> cases hus <;> exact hend
  | @cons kind _ _ _ ts us _ hp hrest =>
    cases kind with
    | keyword word =>
      cases word with
      | elifWord =>
        refine (branch_moved hrest).andThen fun _ _ _ _ _ _ hfirst h => ?_
        refine .upTo (.map (otherBranches_moved h) ?_) _ _
        rintro ⟨others, last⟩ ⟨others', last'⟩ ⟨hothers, hlast⟩
        exact ⟨.cons hfirst.1 hfirst.2 hothers, hlast⟩
      | elseWord => exact .upTo (.map (block_moved hrest) fun _ _ hbody => ⟨.nil, .some hbody⟩) _ _
      | _ => exact hend
    | _ => exact hend
termination_by 4 * ts.length + 2

theorem conditional_moved {ts us : List Token} {kind : TokenKind} {text : String} {p q : Position}
    (hp : R p q) (hrest : Token.MovedToEnd R E ts us) :
    (conditional (⟨kind, text, p⟩ :: ts)).Moved R E (Statement.Moved R)
      (conditional (⟨kind, text, q⟩ :: us)) := by
  rw [conditional, conditional]
  refine (branch_moved hrest).andThen fun _ _ _ _ _ _ hfirst h => ?_
  refine .upTo (.map (otherBranches_moved h) ?_) _ _
  rintro ⟨others, last⟩ ⟨others', last'⟩ ⟨hothers, hlast⟩
  exact .conditional (.cons hfirst.1 hfirst.2 hothers) hlast hp
termination_by 4 * (ts.length + 1)

theorem whileLoop_moved {ts us : List Token} {kind : TokenKind} {text : String} {p q : Position}
    (hp : R p q) (hrest : Token.MovedToEnd R E ts us) :
    (whileLoop (⟨kind, text, p⟩ :: ts)).Moved R E (Statement.Moved R)
      (whileLoop (⟨kind, text, q⟩ :: us)) := by
  rw [whileLoop, whileLoop]
  refine .upTo (.map (branch_moved hrest) ?_) _ _
  rintro ⟨condition, body⟩ ⟨condition', body'⟩ ⟨hcondition, hbody⟩
  exact .whileLoop hcondition hbody hp
termination_by 4 * (ts.length + 1)

theorem forLoop_moved {ts us : List Token} {kind : TokenKind} {text : String} {p q : Position}
    (hp : R p q) (hrest : Token.MovedToEnd R E ts us) :
    (forLoop (⟨kind, text, p⟩ :: ts)).Moved R E (Statement.Moved R)
      (forLoop (⟨kind, text, q⟩ :: us)) := by
  rw [forLoop, forLoop]
  have := length_skipArrow_le ts
  refine (statement_moved (skipArrow_moved hrest)).andThen fun _ _ _ _ _ _ hinit h => ?_
  refine (mark_moved _ h).andThen fun _ _ _ _ _ _ _ h => ?_
  refine (expression_moved h).andThen fun _ _ _ _ _ _ hcondition h => ?_
  refine (mark_moved _ h).andThen fun _ _ _ _ _ _ _ h => ?_
  refine (statement_moved h).andThen fun _ _ _ _ _ _ hupdate h => ?_
  exact .upTo (.map (block_moved h) fun _ _ hbody => .forLoop hinit hcondition hupdate hbody hp) _ _
termination_by 4 * (ts.length + 1)

end

end Grammar

/-! ## Programs -/

theorem statementsToEnd_of_atEnd {ts : List Token} {p : Position} (h : Token.AtEnd ts p) :
    statementsToEnd ts = .ok [] := by
  cases h with
  | nil => rw [statementsToEnd]
  | endOfInput => rw [statementsToEnd]

theorem statementsToEnd_moved {ts us : List Token} (h : Token.MovedToEnd R E ts us) :
    Matched (ParseError.MovedToEnd R E) (Statement.AllMoved R) (statementsToEnd ts)
      (statementsToEnd us) := by
  have hfirst := Grammar.statement_moved h
  cases h with
  | last hts hus _ =>
    rw [statementsToEnd_of_atEnd hts, statementsToEnd_of_atEnd hus]
    exact .ok .nil
  | @cons kind text p q ts us hkind _ _ =>
    rw [statementsToEnd, statementsToEnd]
    -- The two replies are known by their relation only.
    · generalize Grammar.statement (⟨kind, text, p⟩ :: ts) = r,
        Grammar.statement (⟨kind, text, q⟩ :: us) = r' at hfirst ⊢
      cases hfirst with
      | error hcause => exact .error hcause
      | @ok _ _ rest rest' hlt hlt' hfirst hrest =>
        have hshorter : rest.length ≤ ts.length := Nat.le_of_lt_succ hlt
        have hothers := statementsToEnd_moved hrest
        dsimp only
        generalize statementsToEnd rest = x, statementsToEnd rest' = y at hothers ⊢
        cases hothers with
        | ok hothers => exact .ok (.cons hfirst hothers)
        | error hcause => exact .error hcause
    all_goals simp [hkind]
termination_by ts.length

/-- Tokens that are moved up to the end of input are read into moved programs, or errors. -/
theorem parse_movedToEnd {ts us : List Token}
    (h : Token.MovedToEnd R E (ts.filter (!·.isComment)) (us.filter (!·.isComment))) :
    Matched (ParseError.MovedToEnd R E) (Program.Moved R) (parse ts) (parse us) :=
  (statementsToEnd_moved h).map id

/-- Tokens that differ in positions only are read into programs, or errors, that do so. -/
theorem parse_moved {ts us : List Token}
    (h : Token.AllMoved R E (ts.filter (!·.isComment)) (us.filter (!·.isComment))) :
    Matched (ParseError.Moved fun p q => R p q ∨ E p q) (Program.Moved R) (parse ts)
      (parse us) := by
  have hparse := parse_movedToEnd h.movedToEnd
  generalize parse ts = x, parse us = y at hparse ⊢
  cases hparse with
  | ok h => exact .ok h
  | error h => exact .error h.moved

end Arrow
