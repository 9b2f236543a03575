import Arrow.Grammar.Program
import Arrow.Proofs.Grammar.Statement

/-!
# Derivations

`Derives n tokens result rest` is the grammar as a relation: the nonterminal `n` takes the tokens in
front of `rest` for `result`. There is a rule for each form; where a form ends is settled by the
first token of `rest` alone. What is derived is read by the routine of the nonterminal
(`Derives.takes`).
-/

namespace Arrow

namespace Grammar

/-- What stands in lists: arguments and elements, fields of objects, and parameters. -/
inductive Entry where
  | expression
  | field
  | parameter

abbrev Entry.Value : Entry → Type
  | expression => Expr
  | field => String × Expr
  | parameter => Parameter

/-- The forms of the grammar, with what has been read before where that takes part. -/
inductive Nonterminal where
  | entry (entry : Entry)
  | items (closing : Char) (entry : Entry)
  | itemsUntil (closing : Char) (entry : Entry)
  | chain (left : Expr)
  | unary
  | selections (target : Expr)
  | primary
  | declaredType
  | optionalType (known : Option DeclaredType)
  | declaration (p : Position) (kind : Mutability) (type : Option String)
  | parameterName (kind : Mutability) (known : Option DeclaredType)
  | header (p : Position) (type : Option String)
  | statement
  | block
  | statements
  | branch
  | otherBranches

/-- What a form is read as. -/
abbrev Nonterminal.Result : Nonterminal → Type
  | entry e => e.Value
  | items _ e => List e.Value
  | itemsUntil _ e => List e.Value
  | chain _ => Expr
  | unary => Expr
  | selections _ => Expr
  | primary => Expr
  | declaredType => DeclaredType
  | optionalType _ => Option DeclaredType
  | declaration _ _ _ => Statement
  | parameterName _ _ => Parameter
  | header _ _ => Header
  | statement => Statement
  | block => List Statement
  | statements => List Statement
  | branch => Branch
  | otherBranches => List Branch × Option (List Statement)

/-- The nonterminal takes the tokens in front of `rest` for the result. -/
inductive Derives : (n : Nonterminal) → List Token → n.Result → List Token → Prop
  -- Lists
  | items_nil {closing e text p rest} :
      Derives (.items closing e) (⟨.punctuation closing, text, p⟩ :: rest) [] rest
  | items_cons {closing e ts rest} {rs : List e.Value} :
      StartsNot (· = .punctuation closing) ts → Derives (.itemsUntil closing e) ts rs rest →
      Derives (.items closing e) ts rs rest
  | itemsUntil_last {closing e text p ts rest} {r : e.Value} :
      closing ≠ ',' → Derives (.entry e) ts r (⟨.punctuation closing, text, p⟩ :: rest) →
      Derives (.itemsUntil closing e) ts [r] rest
  | itemsUntil_more {closing e text p ts mid rest} {r : e.Value} {rs : List e.Value} :
      Derives (.entry e) ts r (⟨.punctuation ',', text, p⟩ :: mid) →
      Derives (.itemsUntil closing e) mid rs rest →
      Derives (.itemsUntil closing e) ts (r :: rs) rest
  -- Expressions
  | expression {ts mid rest left r} :
      Derives .unary ts left mid → Derives (.chain left) mid r rest →
      Derives (.entry .expression) ts r rest
  | chain_end {rest left} :
      StartsNot TokenKind.joins rest → Derives (.chain left) rest left rest
  | chain_binary {op text p ts mid rest left right r} :
      op.isBinary → Derives .unary ts right mid →
      Derives (.chain (.binary left op right p)) mid r rest →
      Derives (.chain left) (⟨.operator op, text, p⟩ :: ts) r rest
  | unary_not {text p ts rest operand} :
      Derives .unary ts operand rest →
      Derives .unary (⟨.operator .not, text, p⟩ :: ts) (.not operand p) rest
  | unary_operand {ts mid rest target r} :
      StartsNot (· = .operator .not) ts → Derives .primary ts target mid →
      Derives (.selections target) mid r rest →
      Derives .unary ts r rest
  | selections_end {rest target} :
      StartsNot TokenKind.picks rest → Derives (.selections target) rest target rest
  | selections_index {text text' p p' ts mid rest target i r} :
      Derives (.entry .expression) ts i (⟨.punctuation ']', text', p'⟩ :: mid) →
      Derives (.selections (.index target i p)) mid r rest →
      Derives (.selections target) (⟨.punctuation '[', text, p⟩ :: ts) r rest
  | selections_member {property text text' p p' ts rest target r} :
      Derives (.selections (.member target property p')) ts r rest →
      Derives (.selections target)
        (⟨.punctuation '.', text, p⟩ :: ⟨.identifier property, text', p'⟩ :: ts) r rest
  | primary_literal {value text p rest} :
      Derives .primary (⟨value.kind, text, p⟩ :: rest) (.literal value p) rest
  | primary_var {name text p rest} :
      Bindable name → StartsNot TokenKind.opens rest →
      Derives .primary (⟨.identifier name, text, p⟩ :: rest) (.var name p) rest
  | primary_call {name text text' p p' ts rest args} :
      Bindable name → Derives (.items ')' .expression) ts args rest →
      Derives .primary (⟨.identifier name, text, p⟩ :: ⟨.punctuation '(', text', p'⟩ :: ts)
        (.call name args p) rest
  | primary_parentheses {text text' p p' ts rest r} :
      Derives (.entry .expression) ts r (⟨.punctuation ')', text', p'⟩ :: rest) →
      Derives .primary (⟨.punctuation '(', text, p⟩ :: ts) r rest
  | primary_array {text p ts rest elements} :
      Derives (.items ']' .expression) ts elements rest →
      Derives .primary (⟨.punctuation '[', text, p⟩ :: ts) (.array elements p) rest
  | primary_object {text p ts rest fields} :
      Derives (.items '\x7d' .field) ts fields rest →
      Derives .primary (⟨.punctuation '\x7b', text, p⟩ :: ts) (.object fields p) rest
  | field {kind key text text' p p' ts rest r} :
      kind = .identifier key ∨ kind = .text key → Derives (.entry .expression) ts r rest →
      Derives (.entry .field) (⟨kind, text, p⟩ :: ⟨.punctuation ':', text', p'⟩ :: ts) (key, r) rest
  -- Declarations
  | declaredType_const {name text text₁ text₂ text₃ p p₁ p₂ p₃ rest} :
      Derives .declaredType (⟨.operator .typeOpen, text, p⟩ :: ⟨.identifier "const", text₁, p₁⟩ ::
        ⟨.identifier name, text₂, p₂⟩ :: ⟨.operator .typeClose, text₃, p₃⟩ :: rest)
        ⟨name, true, p₂⟩ rest
  | declaredType_plain {name text text₁ text₂ p p₁ p₂ rest} :
      name ≠ "const" →
      Derives .declaredType (⟨.operator .typeOpen, text, p⟩ :: ⟨.identifier name, text₁, p₁⟩ ::
        ⟨.operator .typeClose, text₂, p₂⟩ :: rest) ⟨name, false, p₁⟩ rest
  | optionalType_none {known rest} :
      StartsNot TokenKind.annotates rest → Derives (.optionalType known) rest known rest
  | optionalType_some {ts rest type} :
      Derives .declaredType ts type rest → Derives (.optionalType none) ts (some type) rest
  | declaration_value {kind word name type text text' p p₁ p' ts mid rest r} :
      Bindable name → Derives (.optionalType (wordType word kind p)) ts type
        (⟨.operator .assign, text', p'⟩ :: mid) →
      Derives (.entry .expression) mid r rest →
      Derives (.declaration p kind word) (⟨.identifier name, text, p₁⟩ :: ts)
        (.declaration (settled kind type) name type r p) rest
  | declaration_absent {kind word name type text p p₁ ts rest} :
      Bindable name → Derives (.optionalType (wordType word kind p)) ts type rest →
      StartsNot (· = .operator .assign) rest →
      Derives (.declaration p kind word) (⟨.identifier name, text, p₁⟩ :: ts)
        (.declaration (settled kind type) name type (absent p) p) rest
  | parameter_const {word text p ts rest r} :
      Derives (.parameterName .const (wordType word .const p)) ts r rest →
      Derives (.entry .parameter) (⟨.keyword (.const word), text, p⟩ :: ts) r rest
  | parameter_var {word text p ts rest r} :
      Derives (.parameterName .var (wordType word .var p)) ts r rest →
      Derives (.entry .parameter) (⟨.keyword (.var word), text, p⟩ :: ts) r rest
  | parameter_plain {ts rest r} :
      Derives (.parameterName .var none) ts r rest → Derives (.entry .parameter) ts r rest
  | parameterName {kind known name type text p ts rest} :
      Bindable name → Derives (.optionalType known) ts type rest →
      Derives (.parameterName kind known) (⟨.identifier name, text, p⟩ :: ts)
        ⟨name, type, settled kind type, p⟩ rest
  | header {word name type text text' p p₁ p' ts mid rest params} :
      Derives (.items ')' .parameter) ts params mid → repeated? [] params = none →
      Derives (.optionalType (wordType word .var p)) mid type rest →
      Derives (.header p word) (⟨.identifier name, text, p₁⟩ :: ⟨.punctuation '(', text', p'⟩ :: ts)
        ⟨name, params, type⟩ rest
  -- Statements
  | statement_var {word text p ts rest r} :
      Derives (.declaration p .var word) ts r rest →
      Derives .statement (⟨.keyword (.var word), text, p⟩ :: ts) r rest
  | statement_const {word text p ts rest r} :
      Derives (.declaration p .const word) ts r rest →
      Derives .statement (⟨.keyword (.const word), text, p⟩ :: ts) r rest
  | statement_function {word text p ts mid rest head body} :
      Derives (.header p word) ts head mid → Derives .block mid body rest →
      Derives .statement (⟨.keyword (.fn word), text, p⟩ :: ts)
        (.function ⟨head.name, head.params, head.returnType, body, p⟩) rest
  | statement_return {text p ts rest r} :
      ts ≠ [] → StartsNot TokenKind.ends ts → Derives (.entry .expression) ts r rest →
      Derives .statement (⟨.keyword .arrow, text, p⟩ :: ts) (.returnValue r p) rest
  | statement_returnAbsent {text p rest} :
      (∀ token ∈ rest.head?, token.kind.ends) →
      Derives .statement (⟨.keyword .arrow, text, p⟩ :: rest) (.returnValue (absent p) p) rest
  | statement_conditional {text p ts mid rest first others otherwise} :
      Derives .branch ts first mid → Derives .otherBranches mid (others, otherwise) rest →
      Derives .statement (⟨.keyword .ifWord, text, p⟩ :: ts)
        (.conditional (first :: others) otherwise p) rest
  | statement_while {text p ts rest condition body} :
      Derives .branch ts ⟨condition, body⟩ rest →
      Derives .statement (⟨.keyword .whileWord, text, p⟩ :: ts) (.whileLoop condition body p) rest
  | statement_for {text text₁ text₂ p p₁ p₂ ts mid₁ mid₂ mid₃ rest init condition update body} :
      Derives .statement (skipArrow ts) init (⟨.punctuation ';', text₁, p₁⟩ :: mid₁) →
      Derives (.entry .expression) mid₁ condition (⟨.punctuation ';', text₂, p₂⟩ :: mid₂) →
      Derives .statement mid₂ update mid₃ → Derives .block mid₃ body rest →
      Derives .statement (⟨.keyword .forWord, text, p⟩ :: ts)
        (.forLoop init condition update body p) rest
  | statement_declaration {name text text' p p' ts rest r} :
      Derives (.declaration p .var none)
        (⟨.identifier name, text, p⟩ :: ⟨.operator .typeOpen, text', p'⟩ :: ts) r rest →
      Derives .statement
        (⟨.identifier name, text, p⟩ :: ⟨.operator .typeOpen, text', p'⟩ :: ts) r rest
  | statement_assignment {name text text' p p' ts rest r} :
      Bindable name → Derives (.entry .expression) ts r rest →
      Derives .statement (⟨.identifier name, text, p⟩ :: ⟨.operator .assign, text', p'⟩ :: ts)
        (.assignment name r p) rest
  | statement_expression {name text text' p p' ts rest r} :
      Derives (.entry .expression)
        (⟨.identifier name, text, p⟩ :: ⟨.punctuation '(', text', p'⟩ :: ts) r rest →
      Derives .statement (⟨.identifier name, text, p⟩ :: ⟨.punctuation '(', text', p'⟩ :: ts)
        (.expression r p) rest
  -- Blocks
  | block {text p ts rest body} :
      Derives .statements ts body rest →
      Derives .block (⟨.punctuation '\x7b', text, p⟩ :: ts) body rest
  | statements_nil {text p rest} :
      Derives .statements (⟨.punctuation '\x7d', text, p⟩ :: rest) [] rest
  | statements_cons {ts mid rest first others} :
      Derives .statement ts first mid → Derives .statements mid others rest →
      Derives .statements ts (first :: others) rest
  | branch {ts mid rest condition body} :
      Derives (.entry .expression) (skipArrow ts) condition mid → Derives .block mid body rest →
      Derives .branch ts ⟨condition, body⟩ rest
  | otherBranches_elif {text p ts mid rest first others otherwise} :
      Derives .branch ts first mid → Derives .otherBranches mid (others, otherwise) rest →
      Derives .otherBranches (⟨.keyword .elifWord, text, p⟩ :: ts) (first :: others, otherwise) rest
  | otherBranches_else {text p ts rest body} :
      Derives .block ts body rest →
      Derives .otherBranches (⟨.keyword .elseWord, text, p⟩ :: ts) ([], some body) rest
  | otherBranches_none {rest} :
      StartsNot TokenKind.branches rest → Derives .otherBranches rest ([], none) rest

/-! ## What is derived is read -/

/-- The routine for what stands in a list. -/
def Entry.routine : (e : Entry) → (tokens : List Token) → Reply e.Value tokens.length
  | expression => Grammar.expression
  | field => Grammar.field
  | parameter => Grammar.parameter

/-- The routine for the nonterminal takes the tokens in front of `rest` for the result. -/
def Nonterminal.Takes : (n : Nonterminal) → List Token → n.Result → List Token → Prop
  | entry e, ts, r, rest => (e.routine ts).outcome = (.ok r, rest)
  | items closing e, ts, r, rest =>
    (Reply.items closing ts fun tokens _ => e.routine tokens).outcome = (.ok r, rest)
  | itemsUntil closing e, ts, r, rest => ∀ bound (h : ts.length ≤ bound),
    (Reply.itemsUntil closing bound (fun tokens _ => e.routine tokens) ts h).outcome = (.ok r, rest)
  | chain left, ts, r, rest => (Grammar.chain left ts).outcome = (.ok r, rest)
  | unary, ts, r, rest => (Grammar.unary ts).outcome = (.ok r, rest)
  | selections target, ts, r, rest => (Grammar.selections target ts).outcome = (.ok r, rest)
  | primary, ts, r, rest => (Grammar.primary ts).outcome = (.ok r, rest)
  | declaredType, ts, r, rest => (Grammar.declaredType ts).outcome = (.ok r, rest)
  | optionalType known, ts, r, rest =>
    ∀ what, (Grammar.optionalType known what ts).outcome = (.ok r, rest)
  | declaration p kind word, ts, r, rest =>
    (Grammar.declaration p kind word ts).outcome = (.ok r, rest)
  | parameterName kind known, ts, r, rest =>
    (parameter.parameterName kind known ts).outcome = (.ok r, rest)
  | header p word, ts, r, rest => (Grammar.header p word ts).outcome = (.ok r, rest)
  | statement, ts, r, rest => (Grammar.statement ts).outcome = (.ok r, rest)
  | block, ts, r, rest => (Grammar.block ts).outcome = (.ok r, rest)
  | statements, ts, r, rest => (Grammar.statements ts).outcome = (.ok r, rest)
  | branch, ts, r, rest => (Grammar.branch ts).outcome = (.ok r, rest)
  | otherBranches, ts, r, rest => (Grammar.otherBranches ts).outcome = (.ok r, rest)

variable {n : Nonterminal} {ts rest : List Token}

theorem outcome_items_cons {closing : Char} {e : Entry} {rs : List e.Value}
    (hstart : StartsNot (· = .punctuation closing) ts)
    (h : (Nonterminal.itemsUntil closing e).Takes ts rs rest) :
    (Nonterminal.items closing e).Takes ts rs rest := by
  unfold Nonterminal.Takes Reply.items
  cases ts with
  | nil => exact h 0 (Nat.le_refl 0)
  | cons token ts =>
    dsimp only
    rw [if_neg (of_decide_eq_false (startsNot_cons.1 hstart))]
    exact h _ (Nat.le_refl _)

theorem outcome_mapUpTo {α β : Type} {a b : Nat} {r : Reply α a} {value : α} {f : α → β}
    (h : r.outcome = (.ok value, rest)) (hle : a ≤ b) :
    ((r.map f).upTo hle).outcome = (.ok (f value), rest) := by
  rw [Reply.outcome_upTo, Reply.outcome_map, h]
  rfl

theorem Derives.beginsStatement {r : Statement} (h : Derives .statement ts r rest) :
    ∃ token behind, ts = token :: behind ∧ token.kind.beginsStatement := by
  cases h <;> exact ⟨_, _, rfl, rfl⟩

theorem Derives.takes {r : n.Result} (h : Derives n ts r rest) : n.Takes ts r rest := by
  induction h with
  | items_nil =>
    unfold Nonterminal.Takes Reply.items
    dsimp only
    rw [if_pos rfl]
    rfl
  | items_cons hstart h ih => exact outcome_items_cons hstart ih
  | itemsUntil_last hcomma h ih =>
    exact fun bound hle => outcome_itemsUntil_closing hle ih hcomma rfl
  | itemsUntil_more h₁ h₂ ih₁ ih₂ =>
    intro bound hle
    obtain ⟨hrest, houtcome⟩ := outcome_itemsUntil_comma _ hle ih₁ rfl
    rw [houtcome, ih₂ bound hrest]
    rfl
  | expression h₁ h₂ ih₁ ih₂ => exact (outcome_expression ih₁).trans ih₂
  | chain_end h => exact outcome_chain_stops h _
  | chain_binary hop h₁ h₂ ih₁ ih₂ => exact (outcome_chain_binary rfl hop ih₁).trans ih₂
  | unary_not h ih => exact outcome_unary_not rfl ih
  | unary_operand hstart h₁ h₂ ih₁ ih₂ =>
    exact (outcome_unary_operand hstart).trans ((outcome_operand ih₁).trans ih₂)
  | selections_end h => exact outcome_selections_stops h _
  | selections_index h₁ h₂ ih₁ ih₂ => exact (outcome_selections_index rfl ih₁ rfl).trans ih₂
  | selections_member h ih => exact (outcome_selections_member rfl rfl).trans ih
  | primary_literal => exact outcome_primary_literal rfl
  | primary_var hname h => exact outcome_primary_var rfl hname h
  | primary_call hname h ih => exact outcome_primary_call rfl hname rfl ih
  | primary_parentheses h ih => exact outcome_primary_parentheses rfl ih rfl
  | primary_array h ih => exact outcome_primary_array rfl ih
  | primary_object h ih => exact outcome_primary_object rfl ih
  | field hkey h ih => exact outcome_field hkey rfl ih
  | declaredType_const => exact outcome_declaredType_const rfl rfl rfl rfl
  | declaredType_plain hname => exact outcome_declaredType_plain rfl rfl hname rfl
  | optionalType_none h => exact outcome_optionalType_none h _
  | optionalType_some h ih =>
    cases h with
    | declaredType_const => exact outcome_optionalType_some rfl ih
    | declaredType_plain hname => exact outcome_optionalType_some rfl ih
  | declaration_value hname h₁ h₂ ih₁ ih₂ =>
    refine Reply.outcome_andThen (outcome_bindingName rfl hname) fun _ => ?_
    refine Reply.outcome_andThen (ih₁ _) fun _ => ?_
    exact outcome_mapUpTo ih₂ _
  | declaration_absent hname h hsign ih =>
    refine Reply.outcome_andThen (outcome_bindingName rfl hname) fun _ => ?_
    refine Reply.outcome_andThen (ih _) fun _ => ?_
    split
    case h_1 => exact absurd rfl (of_decide_eq_false (startsNot_cons.1 hsign))
    case h_2 => rfl
  | parameter_const h ih => exact (Reply.outcome_upTo _ (Reply.length_le _)).trans ih
  | parameter_var h ih => exact (Reply.outcome_upTo _ (Reply.length_le _)).trans ih
  | parameter_plain h ih =>
    cases h with
    | parameterName hname h => exact ih
  | parameterName hname h ih =>
    refine Reply.outcome_andThen (outcome_bindingName rfl hname) fun _ => ?_
    refine Reply.outcome_andThen (ih _) fun _ => ?_
    rfl
  | header h₁ hrepeated h₂ ih₁ ih₂ =>
    refine Reply.outcome_andThen (outcome_identifier rfl) fun _ => ?_
    refine Reply.outcome_andThen (outcome_mark rfl) fun _ => ?_
    refine Reply.outcome_andThen ih₁ fun _ => ?_
    rw [hrepeated]
    refine Reply.outcome_andThen (ih₂ _) fun _ => ?_
    rfl
  | statement_var h ih =>
    show (Grammar.statement _).outcome = _
    rw [Grammar.statement, Reply.outcome_upTo]
    exact ih
  | statement_const h ih =>
    show (Grammar.statement _).outcome = _
    rw [Grammar.statement, Reply.outcome_upTo]
    exact ih
  | statement_function h₁ h₂ ih₁ ih₂ => exact outcome_statement_function rfl ih₁ ih₂
  | statement_return hne hstart h ih =>
    obtain ⟨next, behind, rfl⟩ := List.exists_cons_of_ne_nil hne
    exact outcome_statement_arrow rfl (startsNot_cons.1 hstart) ih
  | statement_returnAbsent h => exact outcome_statement_arrow_absent rfl h
  | statement_conditional h₁ h₂ ih₁ ih₂ => exact outcome_statement_if rfl ih₁ ih₂
  | statement_while h ih => exact outcome_statement_while rfl ih
  | statement_for h₁ h₂ h₃ h₄ ih₁ ih₂ ih₃ ih₄ =>
    exact outcome_statement_for rfl ih₁ rfl ih₂ rfl ih₃ ih₄
  | statement_declaration h ih => exact (outcome_statement_named rfl).trans ih
  | statement_assignment hname h ih =>
    exact (outcome_statement_named rfl).trans (outcome_named_assign rfl hname rfl ih)
  | statement_expression h ih =>
    exact (outcome_statement_named rfl).trans (outcome_named_call rfl ih)
  | block h ih => exact outcome_block rfl ih
  | statements_nil => exact outcome_statements_nil rfl
  | statements_cons h₁ h₂ ih₁ ih₂ =>
    obtain ⟨token, behind, rfl, hbegins⟩ := h₁.beginsStatement
    exact outcome_statements_cons hbegins ih₁ ih₂
  | branch h₁ h₂ ih₁ ih₂ => exact outcome_branch ih₁ ih₂
  | otherBranches_elif h₁ h₂ ih₁ ih₂ => exact outcome_otherBranches_elif rfl ih₁ ih₂
  | otherBranches_else h ih => exact outcome_otherBranches_else rfl ih
  | otherBranches_none h => exact outcome_otherBranches_stops h

end Grammar

end Arrow
