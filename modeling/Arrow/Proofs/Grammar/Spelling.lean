import Arrow.Proofs.Grammar.Locality
import Mathlib

/-!
# The spelling of expressions

`Spells form kinds` is the grammar of expressions by itself: which kinds of tokens, one after
another, make up a form, without a word on what is read or on what follows. `Expr.words` are the
words of an expression in order, that is everything in it but punctuation. The tokens that are taken
for an expression spell one, and its words are theirs (`Grammar.expression_spelt`).
-/

namespace Arrow

/-! ## The grammar -/

/-- The forms of the grammar of expressions, in the order of how tightly they bind. -/
inductive Form where
  | expression
  /-- A binary operator and the operand behind it. -/
  | link
  | unary
  | selection
  /-- An index in brackets, or a point and a property. -/
  | suffix
  | primary
  | field
  /-- Items with commas between them. -/
  | list (item : Form)

/-- The kinds of tokens make up the form. -/
inductive Spells : Form → List TokenKind → Prop
  | expression {first} {links : List (List TokenKind)} :
    Spells .unary first → (∀ kinds ∈ links, Spells .link kinds) →
    Spells .expression (first ++ links.flatten)
  | link {op kinds} :
    op.isBinary → Spells .unary kinds → Spells .link (.operator op :: kinds)
  | unary_not {kinds} : Spells .unary kinds → Spells .unary (.operator .not :: kinds)
  | unary_selection {kinds} : Spells .selection kinds → Spells .unary kinds
  | selection {first} {suffixes : List (List TokenKind)} :
    Spells .primary first → (∀ kinds ∈ suffixes, Spells .suffix kinds) →
    Spells .selection (first ++ suffixes.flatten)
  | suffix_index {kinds} :
    Spells .expression kinds → Spells .suffix (.punctuation '[' :: kinds ++ [.punctuation ']'])
  | suffix_member {property} : Spells .suffix [.punctuation '.', .identifier property]
  | number {value} : Spells .primary [.number value]
  | text {content} : Spells .primary [.text content]
  | name {name} : Spells .primary [.identifier name]
  | call {callee kinds} :
    Spells (.list .expression) kinds →
    Spells .primary (.identifier callee :: .punctuation '(' :: kinds ++ [.punctuation ')'])
  | parentheses {kinds} :
    Spells .expression kinds → Spells .primary (.punctuation '(' :: kinds ++ [.punctuation ')'])
  | array {kinds} :
    Spells (.list .expression) kinds →
    Spells .primary (.punctuation '[' :: kinds ++ [.punctuation ']'])
  | object {kinds} :
    Spells (.list .field) kinds →
    Spells .primary (.punctuation '\x7b' :: kinds ++ [.punctuation '\x7d'])
  | field {key kind kinds} :
    kind = .identifier key ∨ kind = .text key → Spells .expression kinds →
    Spells .field (kind :: .punctuation ':' :: kinds)
  | list_nil {item} : Spells (.list item) []
  | list_cons {item first} {others : List (List TokenKind)} :
    Spells item first → (∀ kinds ∈ others, Spells item kinds) →
    Spells (.list item) (first ++ others.flatMap (.punctuation ',' :: ·))

theorem Spells.literal (value : Literal) : Spells .primary [value.kind] := by
  cases value with
  | integer n => exact .number
  | float x => exact .number
  | text content => exact .text
  | bool b => cases b <;> exact .name
  | null => exact .name

/-! ## Words -/

/-- What a token other than punctuation contributes to an expression. -/
inductive Word where
  | literal (value : Literal) (position : Position)
  | name (spelling : String) (position : Position)
  | operator (op : Operator) (position : Position)
  /-- The key of a field, which is kept without its position. -/
  | key (spelling : String)

/-- The token is that of the word, at the position of the word. -/
inductive Word.Stands : Word → Token → Prop
  | literal {value text p} : Stands (.literal value p) ⟨value.kind, text, p⟩
  | name {spelling text p} : Stands (.name spelling p) ⟨.identifier spelling, text, p⟩
  | operator {op text p} : Stands (.operator op p) ⟨.operator op, text, p⟩
  | key {spelling kind text p} :
    kind = .identifier spelling ∨ kind = .text spelling → Stands (.key spelling) ⟨kind, text, p⟩

mutual

/-- The words of an expression in order. -/
def Expr.words : Expr → List Word
  | literal value p => [.literal value p]
  | var name p => [.name name p]
  | not operand p => .operator .not p :: operand.words
  | binary left op right p => left.words ++ .operator op p :: right.words
  | call callee arguments p => .name callee p :: Expr.wordsIn arguments
  | array elements _ => Expr.wordsIn elements
  | object fields _ => Expr.wordsInFields fields
  | index target selector _ => target.words ++ selector.words
  | member target property p => target.words ++ [.name property p]

def Expr.wordsIn : List Expr → List Word
  | [] => []
  | expr :: exprs => expr.words ++ Expr.wordsIn exprs

def Expr.wordsInFields : List (String × Expr) → List Word
  | [] => []
  | (key, expr) :: fields => .key key :: (expr.words ++ Expr.wordsInFields fields)

end

theorem Expr.wordsIn_eq_flatMap (exprs : List Expr) : wordsIn exprs = exprs.flatMap words := by
  induction exprs with
  | nil => rfl
  | cons expr exprs ih => rw [wordsIn, List.flatMap_cons, ih]

theorem Expr.wordsInFields_eq_flatMap (fields : List (String × Expr)) :
    wordsInFields fields = fields.flatMap fun (key, expr) => .key key :: expr.words := by
  induction fields with
  | nil => rfl
  | cons field fields ih => rw [wordsInFields, List.flatMap_cons, ih, List.cons_append]

def TokenKind.isPunctuation : TokenKind → Bool
  | punctuation _ => true
  | _ => false

/-- The tokens without punctuation. -/
def Token.words (ts : List Token) : List Token :=
  ts.filter (!·.kind.isPunctuation)

/-! ## Tokens that are taken -/

/-- The tokens in front of `rest` are of the given kinds, and the words among them are `words`. -/
inductive Spelt : List TokenKind → List Word → List Token → List Token → Prop
  | nil {rest} : Spelt [] [] rest rest
  | mark {c text p kinds words ts rest} :
    Spelt kinds words ts rest →
    Spelt (.punctuation c :: kinds) words (⟨.punctuation c, text, p⟩ :: ts) rest
  | word {word token kinds words ts rest} :
    word.Stands token → Spelt kinds words ts rest →
    Spelt (token.kind :: kinds) (word :: words) (token :: ts) rest

theorem Literal.isPunctuation_kind (value : Literal) : value.kind.isPunctuation = false := by
  cases value with
  | bool b => cases b <;> rfl
  | _ => rfl

namespace Word

variable {word : Word} {token : Token}

theorem Stands.isPunctuation (h : word.Stands token) : token.kind.isPunctuation = false := by
  cases h with
  | literal => exact Literal.isPunctuation_kind _
  | name => rfl
  | operator => rfl
  | key hkind => rcases hkind with rfl | rfl <;> rfl

theorem Stands.ne_comment (h : word.Stands token) : token.kind ≠ .comment := by
  cases h with
  | literal => exact Literal.kind_ne_comment _
  | name => exact nofun
  | operator => exact nofun
  | key hkind => rcases hkind with rfl | rfl <;> exact nofun

end Word

namespace Spelt

variable {kinds kinds' : List TokenKind} {words words' : List Word} {ts mid rest : List Token}

theorem append (h : Spelt kinds words ts mid) (h' : Spelt kinds' words' mid rest) :
    Spelt (kinds ++ kinds') (words ++ words') ts rest := by
  induction h with
  | nil => exact h'
  | mark _ ih => exact .mark (ih h')
  | word hword _ ih => exact .word hword (ih h')

theorem exists_used (h : Spelt kinds words ts rest) :
    ∃ used, ts = used ++ rest ∧ used.map (·.kind) = kinds ∧
      (∀ token ∈ used, token.kind ≠ .comment) ∧
      List.Forall₂ Word.Stands words (Token.words used) := by
  induction h with
  | nil => exact ⟨[], rfl, rfl, fun _ => nofun, .nil⟩
  | @mark c text p _ _ _ _ _ ih =>
    obtain ⟨used, rfl, rfl, hcomment, hwords⟩ := ih
    exact ⟨⟨.punctuation c, text, p⟩ :: used, rfl, rfl,
      List.forall_mem_cons.2 ⟨nofun, hcomment⟩, hwords⟩
  | @word word token _ _ _ _ hword _ ih =>
    obtain ⟨used, rfl, rfl, hcomment, hwords⟩ := ih
    refine ⟨token :: used, rfl, rfl, List.forall_mem_cons.2 ⟨hword.ne_comment, hcomment⟩, ?_⟩
    have hcons : Token.words (token :: used) = token :: Token.words used :=
      List.filter_cons_of_pos (by rw [hword.isPunctuation]; rfl)
    rw [hcons]
    exact .cons hword hwords

end Spelt

namespace Grammar

/-- The tokens in front of `rest` spell the form with the words. -/
def Reads (form : Form) (words : List Word) (ts rest : List Token) : Prop :=
  ∃ kinds, Spells form kinds ∧ Spelt kinds words ts rest

/-- The tokens in front of `rest` spell forms whose words are those that `after` has behind. -/
def Extends (form : Form) (before after : Expr) (ts rest : List Token) : Prop :=
  ∃ (parts : List (List TokenKind)) (words : List Word), (∀ kinds ∈ parts, Spells form kinds) ∧
    after.words = before.words ++ words ∧ Spelt parts.flatten words ts rest

namespace Extends

variable {form : Form} {before middle after : Expr} {kinds : List TokenKind} {words : List Word}
  {ts mid rest : List Token}

theorem refl (form : Form) (expr : Expr) (rest : List Token) : Extends form expr expr rest rest :=
  ⟨[], [], fun _ => nofun, (List.append_nil _).symm, .nil⟩

theorem cons (hform : Spells form kinds) (hspelt : Spelt kinds words ts mid)
    (hwords : middle.words = before.words ++ words) (h : Extends form middle after mid rest) :
    Extends form before after ts rest := by
  obtain ⟨parts, later, hparts, hlater, hrest⟩ := h
  refine ⟨kinds :: parts, words ++ later, List.forall_mem_cons.2 ⟨hform, hparts⟩, ?_,
    hspelt.append hrest⟩
  rw [hlater, hwords, List.append_assoc]

end Extends

/-- What stands in lists of expressions: parameters do not. -/
def Entry.form? : Entry → Option Form
  | expression => some .expression
  | field => some .field
  | parameter => none

def Entry.words : (e : Entry) → e.Value → List Word
  | expression, r => r.words
  | field, (key, r) => .key key :: r.words
  | parameter, _ => []

/-- What a derivation of the nonterminal says about the words of its result. -/
def Nonterminal.Retains : (n : Nonterminal) → List Token → n.Result → List Token → Prop
  | entry e, ts, r, rest => ∀ form ∈ e.form?, Reads form (e.words r) ts rest
  | items closing e, ts, rs, rest => ∀ form ∈ e.form?, ∃ kinds, Spells (.list form) kinds ∧
    Spelt (kinds ++ [.punctuation closing]) (rs.flatMap e.words) ts rest
  | itemsUntil closing e, ts, rs, rest => ∀ form ∈ e.form?,
    ∃ (first : List TokenKind) (others : List (List TokenKind)), Spells form first ∧
    (∀ kinds ∈ others, Spells form kinds) ∧
    Spelt (first ++ others.flatMap (.punctuation ',' :: ·) ++ [.punctuation closing])
      (rs.flatMap e.words) ts rest
  | chain left, ts, r, rest => Extends .link left r ts rest
  | unary, ts, r, rest => Reads .unary r.words ts rest
  | selections target, ts, r, rest => Extends .suffix target r ts rest
  | primary, ts, r, rest => Reads .primary r.words ts rest
  | _, _, _, _ => True

/-- The induction is on the derivation: operands and suffixes add their words behind the others. -/
theorem Derives.retains {n : Nonterminal} {ts rest : List Token} {r : n.Result}
    (h : Derives n ts r rest) : n.Retains ts r rest := by
  induction h with
  | items_nil => exact fun _ _ => ⟨[], .list_nil, .mark .nil⟩
  | items_cons _ _ ih =>
    intro form hform
    obtain ⟨first, others, hfirst, hothers, hspelt⟩ := ih form hform
    exact ⟨_, .list_cons hfirst hothers, hspelt⟩
  | itemsUntil_last _ _ ih =>
    intro form hform
    obtain ⟨kinds, hkinds, hspelt⟩ := ih form hform
    refine ⟨kinds, [], hkinds, fun _ => nofun, ?_⟩
    simpa using hspelt.append (.mark .nil)
  | itemsUntil_more _ _ ih₁ ih₂ =>
    intro form hform
    obtain ⟨kinds, hkinds, hspelt⟩ := ih₁ form hform
    obtain ⟨first, others, hfirst, hothers, hrest⟩ := ih₂ form hform
    refine ⟨kinds, first :: others, hkinds, List.forall_mem_cons.2 ⟨hfirst, hothers⟩, ?_⟩
    simpa using hspelt.append (.mark hrest)
  | expression _ _ ih₁ ih₂ =>
    rintro form ⟨⟩
    obtain ⟨first, hfirst, hspelt⟩ := ih₁
    obtain ⟨links, words, hlinks, hwords, hrest⟩ := ih₂
    refine ⟨_, .expression hfirst hlinks, ?_⟩
    rw [Entry.words, hwords]
    exact hspelt.append hrest
  | chain_end _ => exact .refl _ _ _
  | chain_binary hop _ _ ih₁ ih₂ =>
    obtain ⟨kinds, hkinds, hspelt⟩ := ih₁
    exact .cons (.link hop hkinds) (.word .operator hspelt) rfl ih₂
  | unary_not _ ih =>
    obtain ⟨kinds, hkinds, hspelt⟩ := ih
    exact ⟨_, .unary_not hkinds, .word .operator hspelt⟩
  | unary_operand _ _ _ ih₁ ih₂ =>
    obtain ⟨first, hfirst, hspelt⟩ := ih₁
    obtain ⟨suffixes, words, hsuffixes, hwords, hrest⟩ := ih₂
    refine ⟨_, .unary_selection (.selection hfirst hsuffixes), ?_⟩
    rw [hwords]
    exact hspelt.append hrest
  | selections_end _ => exact .refl _ _ _
  | selections_index _ _ ih₁ ih₂ =>
    obtain ⟨kinds, hkinds, hspelt⟩ := ih₁ _ rfl
    exact .cons (.suffix_index hkinds) (.mark (hspelt.append (.mark .nil)))
      (by rw [List.append_nil]; rfl) ih₂
  | selections_member _ ih =>
    exact .cons .suffix_member (.mark (.word .name .nil)) rfl ih
  | primary_literal => exact ⟨_, .literal _, .word .literal .nil⟩
  | primary_var _ _ => exact ⟨_, .name, .word .name .nil⟩
  | primary_call _ _ ih =>
    obtain ⟨kinds, hkinds, hspelt⟩ := ih _ rfl
    refine ⟨_, .call hkinds, .word .name (.mark ?_)⟩
    rw [Expr.wordsIn_eq_flatMap]
    exact hspelt
  | primary_parentheses _ ih =>
    obtain ⟨kinds, hkinds, hspelt⟩ := ih _ rfl
    have hclosed := hspelt.append (.mark .nil)
    rw [List.append_nil] at hclosed
    exact ⟨_, .parentheses hkinds, .mark hclosed⟩
  | primary_array _ ih =>
    obtain ⟨kinds, hkinds, hspelt⟩ := ih _ rfl
    refine ⟨_, .array hkinds, .mark ?_⟩
    rw [Expr.words, Expr.wordsIn_eq_flatMap]
    exact hspelt
  | primary_object _ ih =>
    obtain ⟨kinds, hkinds, hspelt⟩ := ih _ rfl
    refine ⟨_, .object hkinds, .mark ?_⟩
    rw [Expr.words, Expr.wordsInFields_eq_flatMap]
    exact hspelt
  | field hkey _ ih =>
    rintro form ⟨⟩
    obtain ⟨kinds, hkinds, hspelt⟩ := ih _ rfl
    exact ⟨_, .field hkey hkinds, .word (.key hkey) (.mark hspelt)⟩
  | parameter_const _ _ => exact fun _ => nofun
  | parameter_var _ _ => exact fun _ => nofun
  | parameter_plain _ _ => exact fun _ => nofun
  | _ => trivial

end Grammar

/--
The tokens that are taken for an expression, one at least and no comment among them, are spelt by
the grammar of expressions. Without the punctuation they are the operators, names, keys and
constants of the expression, all of them and in order, and its nodes have the positions of their own
tokens.
-/
theorem expression_spelt {ts rest : List Token} {expr : Expr}
    (h : (Grammar.expression ts).outcome = (.ok expr, rest)) :
    ∃ used, ts = used ++ rest ∧ used ≠ [] ∧ Spells .expression (used.map (·.kind)) ∧
      (∀ token ∈ used, token.kind ≠ .comment) ∧
      List.Forall₂ Word.Stands expr.words (Token.words used) := by
  obtain ⟨kinds, hkinds, hspelt⟩ := (Grammar.derives_expression h).retains .expression rfl
  obtain ⟨used, rfl, rfl, hcomment, hwords⟩ := hspelt.exists_used
  exact ⟨used, rfl, Grammar.ne_nil_of_outcome h, hkinds, hcomment, hwords⟩

/-- In `!!f(x, "a").k + (null)` all tokens but the brackets, the comma and the point are words. -/
theorem expression_spelt_of_sum :
    let ts : List Token := [TokenKind.operator .not, .identifier "f", .punctuation '(',
      .identifier "x", .punctuation ',', .text "a", .punctuation ')', .punctuation '.',
      .identifier "k", .operator .add, .punctuation '(', .identifier "null", .punctuation ')',
      .comment].mapIdx fun i kind => ⟨kind, "", ⟨1, i⟩⟩
    let call : Expr := .call "f" [.var "x" ⟨1, 3⟩, .literal (.text "a") ⟨1, 5⟩] ⟨1, 1⟩
    let sum : Expr :=
      .binary (.not (.member call "k" ⟨1, 8⟩) ⟨1, 0⟩) .add (.literal .null ⟨1, 11⟩) ⟨1, 9⟩
    (Grammar.expression ts).outcome = (.ok sum, [⟨.comment, "", ⟨1, 13⟩⟩]) ∧
      ∃ used, ts = used ++ [⟨.comment, "", ⟨1, 13⟩⟩] ∧ used ≠ [] ∧
        Spells .expression (used.map (·.kind)) ∧ (∀ token ∈ used, token.kind ≠ .comment) ∧
        List.Forall₂ Word.Stands
          [.operator .not ⟨1, 0⟩, .name "f" ⟨1, 1⟩, .name "x" ⟨1, 3⟩, .literal (.text "a") ⟨1, 5⟩,
            .name "k" ⟨1, 8⟩, .operator .add ⟨1, 9⟩, .literal .null ⟨1, 11⟩]
          (Token.words used) := by
  intro ts call sum
  have hread : (Grammar.expression ts).outcome = (.ok sum, [⟨.comment, "", ⟨1, 13⟩⟩]) := by cbv
  exact ⟨hread, expression_spelt hread⟩

end Arrow
