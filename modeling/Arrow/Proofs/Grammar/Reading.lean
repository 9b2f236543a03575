import Arrow.Grammar.Piece
import Arrow.Proofs.Grammar.Printing

/-!
# Reading printed tokens

A routine of the grammar `Reads` a sequence of token kinds when it takes exactly tokens of these
kinds from the front of any list in which no token follows that could continue what it reads.
-/

namespace Arrow

/-! ## What may follow -/

/-- The list does not begin with a token of a kind that passes the test. -/
def StartsNot (test : TokenKind → Bool) (tokens : List Token) : Prop :=
  ∀ token ∈ tokens.head?, test token.kind = false

namespace TokenKind

/-- A token that makes a call of the name in front of it. -/
def opens (kind : TokenKind) : Bool :=
  kind = .punctuation '('

/-- A token that makes a call of what is in front of it, or selects from it. -/
def selects : TokenKind → Bool
  | punctuation c => c = '(' || c = '[' || c = '.'
  | _ => false

/-- A token that selects from what is in front of it. -/
def picks : TokenKind → Bool
  | punctuation c => c = '[' || c = '.'
  | _ => false

/-- A token that joins what is in front of it to another operand. -/
def joins : TokenKind → Bool
  | operator op => op.isBinary
  | _ => false

/-- A token with which the branches of a conditional go on. -/
def branches : TokenKind → Bool
  | keyword .elifWord => true
  | keyword .elseWord => true
  | _ => false

/-- A token that ends the statements of a block, or all statements. -/
def ends : TokenKind → Bool
  | punctuation c => c = '\x7d'
  | endOfInput => true
  | _ => false

/-- A token with which an expression, a declaration or a conditional can go on. -/
def continues : TokenKind → Bool
  | operator _ => true
  | punctuation c => c = '(' || c = '[' || c = '.'
  | keyword .elifWord => true
  | keyword .elseWord => true
  | _ => false

/-- No token. -/
def never (_ : TokenKind) : Bool :=
  false

theorem selects_of_continues {kind : TokenKind} (h : kind.continues = false) :
    kind.selects = false := by
  cases kind with
  | punctuation c => exact h
  | _ => rfl

theorem picks_of_selects {kind : TokenKind} (h : kind.selects = false) : kind.picks = false := by
  cases kind with
  | punctuation c =>
    rw [selects, Bool.or_assoc, Bool.or_eq_false_iff] at h
    exact h.2
  | _ => rfl

theorem joins_of_continues {kind : TokenKind} (h : kind.continues = false) :
    kind.joins = false := by
  cases kind with
  | operator op => exact nomatch h
  | _ => rfl

theorem branches_of_continues {kind : TokenKind} (h : kind.continues = false) :
    kind.branches = false := by
  cases kind with
  | keyword word => cases word <;> first | rfl | exact nomatch h
  | _ => rfl

theorem opens_of_selects {kind : TokenKind} (h : kind.selects = false) : kind.opens = false := by
  unfold opens
  rw [decide_eq_false_iff_not]
  rintro rfl
  exact nomatch h

end TokenKind

theorem StartsNot.mono {test test' : TokenKind → Bool} {tokens : List Token}
    (h : StartsNot test tokens) (himp : ∀ {kind}, test kind = false → test' kind = false) :
    StartsNot test' tokens :=
  fun token htoken => himp (h token htoken)

theorem startsNot_nil (test : TokenKind → Bool) : StartsNot test [] := by
  intro token htoken
  exact absurd htoken (Option.not_mem_none token)

theorem startsNot_cons {test : TokenKind → Bool} {token : Token} {rest : List Token} :
    StartsNot test (token :: rest) ↔ test token.kind = false := by
  constructor
  · exact fun h => h token rfl
  · rintro h other hother
    obtain rfl := Option.some.inj hother
    exact h

theorem startsNot_never (tokens : List Token) : StartsNot TokenKind.never tokens :=
  fun _ _ => rfl

/-! ## Tokens of given kinds -/

theorem exists_of_map_kind_eq_cons {tokens : List Token} {kind : TokenKind}
    {kinds : List TokenKind} (h : tokens.map (·.kind) = kind :: kinds) :
    ∃ (token : Token) (rest : List Token),
      tokens = token :: rest ∧ token.kind = kind ∧ rest.map (·.kind) = kinds := by
  obtain ⟨token, rest, rfl, hkind, hrest⟩ := List.map_eq_cons_iff.1 h
  exact ⟨token, rest, rfl, hkind, hrest⟩

theorem exists_of_map_kind_eq_append {tokens : List Token} {kind : TokenKind}
    {first second : List TokenKind} (h : tokens.map (·.kind) = first ++ kind :: second) :
    ∃ (front : List Token) (token : Token) (rest : List Token),
      tokens = front ++ token :: rest ∧ front.map (·.kind) = first ∧ token.kind = kind ∧
        rest.map (·.kind) = second := by
  obtain ⟨front, behind, rfl, hfront, hbehind⟩ := List.map_eq_append_iff.1 h
  obtain ⟨token, rest, rfl, hkind, hrest⟩ := exists_of_map_kind_eq_cons hbehind
  exact ⟨front, token, rest, rfl, hfront, hkind, hrest⟩

theorem Expr.separated_singleton (part : List TokenKind) : separated [part] = part :=
  List.intercalate_singleton

theorem Expr.separated_cons_cons (part next : List TokenKind) (parts : List (List TokenKind)) :
    separated (part :: next :: parts) =
      part ++ .punctuation ',' :: separated (next :: parts) := by
  unfold separated
  rw [List.intercalate_cons_cons, List.append_assoc, List.singleton_append]

/-! ## Replies -/

namespace Reply

variable {α β γ : Type} {a b : Nat}

theorem outcome_andThen {r : Reply α a} {f : α → (rest : List Token) → rest.length < a → Reply β b}
    {value : α} {rest : List Token} {result : Except ParseError β × List Token}
    (h : r.outcome = (.ok value, rest)) (hf : ∀ hlt, (f value rest hlt).outcome = result) :
    (r.andThen f).outcome = result := by
  cases r with
  | ok value' rest' hlt =>
    obtain ⟨hvalue, rfl⟩ := Prod.mk.inj h
    obtain rfl := Except.ok.inj hvalue
    exact hf hlt
  | error cause rest' => exact nomatch (Prod.mk.inj h).1

end Reply

/--
The routine takes tokens of the given kinds, in front of any list that does not begin with a token
that passes the test, and gives a value that is `value` up to what `strip` removes.
-/
def Reads {α β : Type} {bound : List Token → Nat} (test : TokenKind → Bool) (strip : α → β)
    (routine : (tokens : List Token) → Reply α (bound tokens)) (kinds : List TokenKind)
    (value : β) : Prop :=
  ∀ tokens rest, tokens.map (·.kind) = kinds → StartsNot test rest →
    ∃ read, strip read = value ∧ (routine (tokens ++ rest)).outcome = (.ok read, rest)

namespace Grammar

variable {token : Token} {rest : List Token}

theorem outcome_mark {c : Char} (h : token.kind = .punctuation c) :
    (mark c (token :: rest)).outcome = (.ok token.position, rest) := by
  unfold mark
  dsimp only
  rw [if_pos h]
  rfl

theorem outcome_operator {op : Operator} (h : token.kind = .operator op) :
    (operator op (token :: rest)).outcome = (.ok token.position, rest) := by
  unfold operator
  dsimp only
  rw [if_pos h]
  rfl

theorem outcome_identifier {name : String} (h : token.kind = .identifier name) :
    (identifier (token :: rest)).outcome = (.ok (name, token.position), rest) := by
  obtain ⟨kind, text, p⟩ := token
  obtain rfl : kind = .identifier name := h
  rfl

theorem literalWord?_eq_none {name : String} (h : Bindable name) : literalWord? name = none := by
  obtain ⟨htrue, hfalse, hnull⟩ := h
  unfold literalWord?
  rw [if_neg htrue, if_neg hfalse, if_neg hnull]

theorem outcome_bindingName {name : String} (h : token.kind = .identifier name)
    (hname : Bindable name) :
    (bindingName (token :: rest)).outcome = (.ok (name, token.position), rest) := by
  obtain ⟨kind, text, p⟩ := token
  obtain rfl : kind = .identifier name := h
  unfold bindingName
  dsimp only
  rw [literalWord?_eq_none hname]
  rfl

/-! ## Lists of items -/

/-- What an item of a list is read as, and the tokens that are read. -/
structure Item (β : Type) where
  kinds : List TokenKind
  value : β

variable {α β : Type} {closing : Char} {strip : α → β}
  {routine : (tokens : List Token) → Reply α tokens.length}

/-- Reading goes on behind an item and a comma. -/
theorem outcome_itemsUntil_comma (closing : Char) {bound : Nat} {source rest : List Token}
    (h : source.length ≤ bound) {read : α}
    (hitem : (routine source).outcome = (.ok read, token :: rest))
    (hcomma : token.kind = .punctuation ',') :
    ∃ hrest : rest.length ≤ bound,
      (Reply.itemsUntil closing bound (fun tokens _ => routine tokens) source h).outcome =
        ((Reply.itemsUntil closing bound (fun tokens _ => routine tokens) rest
            hrest).outcome.1.map (read :: ·),
          (Reply.itemsUntil closing bound (fun tokens _ => routine tokens) rest
            hrest).outcome.2) := by
  cases hreply : routine source with
  | error cause left =>
    rw [hreply] at hitem
    exact nomatch (Prod.mk.inj hitem).1
  | ok value left hlt =>
    rw [hreply] at hitem
    obtain ⟨hvalue, rfl⟩ := Prod.mk.inj hitem
    obtain rfl := Except.ok.inj hvalue
    have hrest : rest.length ≤ bound := by
      rw [List.length_cons] at hlt
      omega
    refine ⟨hrest, ?_⟩
    rw [Reply.itemsUntil, hreply]
    dsimp only [Reply.andThen]
    rw [if_pos hcomma, Reply.outcome_upTo, Reply.outcome_map]

/-- Reading ends behind an item and the closing mark. -/
theorem outcome_itemsUntil_closing {bound : Nat} {source rest : List Token}
    (h : source.length ≤ bound) {read : α}
    (hitem : (routine source).outcome = (.ok read, token :: rest)) (hcomma : closing ≠ ',')
    (hclosing : token.kind = .punctuation closing) :
    (Reply.itemsUntil closing bound (fun tokens _ => routine tokens) source h).outcome =
      (.ok [read], rest) := by
  rw [Reply.itemsUntil]
  refine Reply.outcome_andThen hitem fun hlt => ?_
  have hother : token.kind ≠ .punctuation ',' := by
    rw [hclosing]
    exact fun heq => hcomma (TokenKind.punctuation.inj heq)
  dsimp only
  rw [if_neg hother, if_pos hclosing]
  rfl

theorem reads_itemsUntil (hstops : (TokenKind.punctuation closing).continues = false)
    (hcomma : closing ≠ ',') (first : Item β) (others : List (Item β))
    (hitems : ∀ item ∈ first :: others,
      Reads TokenKind.continues strip routine item.kinds item.value)
    {bound : Nat} {tokens rest source : List Token} (hsource : source = tokens ++ rest)
    (h : source.length ≤ bound)
    (htokens : tokens.map (·.kind) =
      Expr.separated ((first :: others).map (·.kinds)) ++ [.punctuation closing]) :
    ∃ read, read.map strip = (first :: others).map (·.value) ∧
      (Reply.itemsUntil closing bound (fun tokens _ => routine tokens) source h).outcome =
        (.ok read, rest) := by
  induction others generalizing first tokens source with
  | nil =>
    rw [List.map_singleton, Expr.separated_singleton] at htokens
    obtain ⟨front, last, behind, rfl, hfront, hlast, hbehind⟩ :=
      exists_of_map_kind_eq_append htokens
    obtain rfl := List.map_eq_nil_iff.1 hbehind
    obtain ⟨read, hread, hitem⟩ := hitems first List.mem_cons_self front (last :: rest)
      hfront (startsNot_cons.2 (by rw [hlast]; exact hstops))
    rw [List.append_assoc, List.singleton_append] at hsource
    subst hsource
    exact ⟨[read], congrArg ([·]) hread, outcome_itemsUntil_closing h hitem hcomma hlast⟩
  | cons second others ih =>
    rw [List.map_cons, List.map_cons, Expr.separated_cons_cons, List.append_assoc,
      List.cons_append, ← List.map_cons (f := Item.kinds)] at htokens
    obtain ⟨front, comma, behind, rfl, hfront, hcomma', hbehind⟩ :=
      exists_of_map_kind_eq_append htokens
    obtain ⟨read, hread, hitem⟩ := hitems first List.mem_cons_self front
      (comma :: (behind ++ rest)) hfront (startsNot_cons.2 (by rw [hcomma']; rfl))
    rw [List.append_assoc, List.cons_append] at hsource
    subst hsource
    obtain ⟨hlength, houtcome⟩ := outcome_itemsUntil_comma closing h hitem hcomma'
    obtain ⟨others', hothers, hrest⟩ := ih second
      (fun item hitem => hitems item (List.mem_cons_of_mem _ hitem)) rfl hlength hbehind
    refine ⟨read :: others', ?_, ?_⟩
    · rw [List.map_cons, hread, hothers, List.map_cons (a := first)]
    · rw [houtcome, hrest]
      rfl

/-- A list of items in brackets, whose opening mark has been read. -/
theorem reads_items (closing : Char) (strip : α → β)
    (routine : (tokens : List Token) → Reply α tokens.length)
    (hstops : (TokenKind.punctuation closing).continues = false)
    (hcomma : closing ≠ ',') (parts : List (Item β))
    (hitems : ∀ item ∈ parts, Reads TokenKind.continues strip routine item.kinds item.value)
    (hheads : ∀ item ∈ parts, ∃ kind kinds, item.kinds = kind :: kinds ∧
      kind ≠ .punctuation closing) :
    Reads TokenKind.never (List.map strip)
      (fun tokens => Reply.items closing tokens fun rest _ => routine rest)
      (Expr.separated (parts.map (·.kinds)) ++ [.punctuation closing])
      (parts.map (·.value)) := by
  intro tokens rest htokens _
  cases parts with
  | nil =>
    obtain ⟨last, behind, rfl, hlast, hbehind⟩ := exists_of_map_kind_eq_cons htokens
    obtain rfl := List.map_eq_nil_iff.1 hbehind
    refine ⟨[], rfl, ?_⟩
    unfold Reply.items
    dsimp only [List.cons_append, List.nil_append]
    rw [if_pos hlast]
    rfl
  | cons first others =>
    obtain ⟨kind, kinds, hkinds, hother⟩ := hheads first List.mem_cons_self
    obtain ⟨read, hread, houtcome⟩ := reads_itemsUntil hstops hcomma first others hitems
      (show tokens ++ rest = tokens ++ rest from rfl) (Nat.le_refl _) htokens
    refine ⟨read, hread, ?_⟩
    rw [List.map_cons, hkinds, Expr.separated, List.intercalate_cons_cons_left,
      List.cons_append] at htokens
    obtain ⟨token, behind, rfl, htoken, -⟩ := exists_of_map_kind_eq_cons htokens
    unfold Reply.items
    dsimp only [List.cons_append]
    rw [if_neg (by rw [htoken]; exact hother)]
    exact houtcome

end Grammar

end Arrow
