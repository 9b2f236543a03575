import Arrow.Grammar.Expression
import Arrow.Proofs.Grammar.Reading

/-!
# Reading printed expressions

An expression is printed at three levels: as a chain, as an operand of a chain, and as what
something is selected from. Each level is read back by the routine of the grammar for it
(`Expr.Readable`), up to what may follow: the routine goes on with that.
-/

namespace Arrow

namespace Grammar

variable {token : Token} {rest : List Token}

/-! ## One step of the routines -/

/-- Reads an operand without a negation in front. -/
def operand (tokens : List Token) : Reply Expr tokens.length :=
  (primary tokens).andThen fun target rest h => (selections target rest).upTo h

theorem outcome_unary_not {operand : Expr} {left : List Token} (h : token.kind = .operator .not)
    (hoperand : (unary rest).outcome = (.ok operand, left)) :
    (unary (token :: rest)).outcome = (.ok (.not operand token.position), left) := by
  obtain ⟨kind, text, p⟩ := token
  obtain rfl : kind = .operator .not := h
  rw [unary, Reply.outcome_upTo, Reply.outcome_map, hoperand]
  rfl

theorem outcome_unary_operand (h : StartsNot (· = .operator .not) rest) :
    (unary rest).outcome = (operand rest).outcome := by
  rw [unary]
  · rfl
  · rintro text p behind rfl
    exact of_decide_eq_false (startsNot_cons.1 h) rfl

theorem outcome_chain_stops (h : StartsNot TokenKind.joins rest) (left : Expr) :
    (chain left rest).outcome = (.ok left, rest) := by
  rw [chain.eq_def]
  split
  case h_1 op text p rest =>
    have hop : op.isBinary = false := startsNot_cons.1 h
    rw [if_neg (Bool.eq_false_iff.1 hop)]
    rfl
  case h_2 => rfl

theorem outcome_chain_binary {left right : Expr} {op : Operator} {behind : List Token}
    (h : token.kind = .operator op) (hop : op.isBinary)
    (hright : (unary rest).outcome = (.ok right, behind)) :
    (chain left (token :: rest)).outcome =
      (chain (.binary left op right token.position) behind).outcome := by
  obtain ⟨kind, text, p⟩ := token
  obtain rfl : kind = .operator op := h
  rw [chain, if_pos hop]
  refine Reply.outcome_andThen hright fun hlt => ?_
  rw [Reply.outcome_upTo]

theorem outcome_selections_stops (h : StartsNot TokenKind.picks rest) (target : Expr) :
    (selections target rest).outcome = (.ok target, rest) := by
  rw [selections.eq_def]
  split
  case h_1 => cases startsNot_cons.1 h
  case h_2 => cases startsNot_cons.1 h
  case h_3 => rfl

theorem outcome_selections_index {target selector : Expr} {closing : Token} {behind : List Token}
    (h : token.kind = .punctuation '[')
    (hselector : (expression rest).outcome = (.ok selector, closing :: behind))
    (hclosing : closing.kind = .punctuation ']') :
    (selections target (token :: rest)).outcome =
      (selections (.index target selector token.position) behind).outcome := by
  obtain ⟨kind, text, p⟩ := token
  obtain rfl : kind = .punctuation '[' := h
  rw [selections]
  refine Reply.outcome_andThen hselector fun _ => ?_
  refine Reply.outcome_andThen (outcome_mark hclosing) fun _ => ?_
  rw [Reply.outcome_upTo]

theorem outcome_selections_member {target : Expr} {name : Token} {property : String}
    (h : token.kind = .punctuation '.') (hname : name.kind = .identifier property) :
    (selections target (token :: name :: rest)).outcome =
      (selections (.member target property name.position) rest).outcome := by
  obtain ⟨kind, text, p⟩ := token
  obtain rfl : kind = .punctuation '.' := h
  rw [selections]
  refine Reply.outcome_andThen (outcome_identifier hname) fun _ => ?_
  rw [Reply.outcome_upTo]

theorem outcome_operand {target : Expr} {tokens : List Token}
    (h : (primary tokens).outcome = (.ok target, rest)) :
    (operand tokens).outcome = (selections target rest).outcome := by
  refine Reply.outcome_andThen h fun _ => ?_
  rw [Reply.outcome_upTo]

theorem outcome_expression {left : Expr} {tokens : List Token}
    (h : (unary tokens).outcome = (.ok left, rest)) :
    (expression tokens).outcome = (chain left rest).outcome := by
  rw [expression]
  refine Reply.outcome_andThen h fun _ => ?_
  rw [Reply.outcome_upTo]

theorem outcome_primary_literal {value : Literal} (h : token.kind = value.kind) :
    (primary (token :: rest)).outcome = (.ok (.literal value token.position), rest) := by
  obtain ⟨kind, text, p⟩ := token
  obtain rfl : kind = value.kind := h
  rcases value with _ | _ | _ | (_ | _) | _
  all_goals
    unfold Literal.kind
    rw [primary]
    rfl

theorem outcome_primary_var {name : String} (h : token.kind = .identifier name)
    (hname : Bindable name) (hrest : StartsNot TokenKind.opens rest) :
    (primary (token :: rest)).outcome = (.ok (.var name token.position), rest) := by
  obtain ⟨kind, text, p⟩ := token
  obtain rfl : kind = .identifier name := h
  rw [primary, literalWord?_eq_none hname]
  cases rest with
  | nil => rfl
  | cons next rest =>
    obtain ⟨kind, text', p'⟩ := next
    cases kind with
    | punctuation c =>
      have hc : c ≠ '(' := by
        rintro rfl
        cases startsNot_cons.1 hrest
      simp [hc, Reply.outcome]
    | _ => rfl

theorem outcome_primary_call {name : String} {opening : Token} {arguments : List Expr}
    {behind : List Token} (h : token.kind = .identifier name) (hname : Bindable name)
    (hopening : opening.kind = .punctuation '(')
    (harguments : (Reply.items ')' rest fun tokens _ => expression tokens).outcome =
      (.ok arguments, behind)) :
    (primary (token :: opening :: rest)).outcome =
      (.ok (.call name arguments token.position), behind) := by
  obtain ⟨kind, text, p⟩ := token
  obtain rfl : kind = .identifier name := h
  obtain ⟨kind, text', p'⟩ := opening
  obtain rfl : kind = .punctuation '(' := hopening
  rw [primary, literalWord?_eq_none hname]
  change (Reply.upTo (Reply.map _ (Reply.items ')' rest fun tokens _ => expression tokens))
    _).outcome = _
  rw [Reply.outcome_upTo, Reply.outcome_map, harguments]
  rfl

theorem outcome_primary_parentheses {value : Expr} {closing : Token} {behind : List Token}
    (h : token.kind = .punctuation '(')
    (hvalue : (expression rest).outcome = (.ok value, closing :: behind))
    (hclosing : closing.kind = .punctuation ')') :
    (primary (token :: rest)).outcome = (.ok value, behind) := by
  obtain ⟨kind, text, p⟩ := token
  obtain rfl : kind = .punctuation '(' := h
  rw [primary]
  refine Reply.outcome_andThen hvalue fun _ => ?_
  refine Reply.outcome_andThen (outcome_mark hclosing) fun _ => ?_
  rfl

theorem outcome_primary_array {elements : List Expr} {behind : List Token}
    (h : token.kind = .punctuation '[')
    (helements : (Reply.items ']' rest fun tokens _ => expression tokens).outcome =
      (.ok elements, behind)) :
    (primary (token :: rest)).outcome = (.ok (.array elements token.position), behind) := by
  obtain ⟨kind, text, p⟩ := token
  obtain rfl : kind = .punctuation '[' := h
  rw [primary, Reply.outcome_upTo, Reply.outcome_map, helements]
  rfl

theorem outcome_primary_object {fields : List (String × Expr)} {behind : List Token}
    (h : token.kind = .punctuation '\x7b')
    (hfields : (Reply.items '\x7d' rest fun tokens _ => field tokens).outcome =
      (.ok fields, behind)) :
    (primary (token :: rest)).outcome = (.ok (.object fields token.position), behind) := by
  obtain ⟨kind, text, p⟩ := token
  obtain rfl : kind = .punctuation '\x7b' := h
  rw [primary, Reply.outcome_upTo, Reply.outcome_map, hfields]
  rfl

theorem outcome_field {key : String} {colon : Token} {value : Expr} {behind : List Token}
    (h : token.kind = .identifier key ∨ token.kind = .text key)
    (hcolon : colon.kind = .punctuation ':')
    (hvalue : (expression rest).outcome = (.ok value, behind)) :
    (field (token :: colon :: rest)).outcome = (.ok (key, value), behind) := by
  obtain ⟨kind, text, p⟩ := token
  have hkey : (field (⟨kind, text, p⟩ :: colon :: rest)).outcome =
      (fieldValue key (colon :: rest)).outcome := by
    obtain rfl | rfl := h <;> rw [field]
  rw [hkey, fieldValue]
  refine Reply.outcome_andThen (outcome_mark hcolon) fun _ => ?_
  rw [Reply.outcome_upTo, Reply.outcome_map, hvalue]
  rfl

end Grammar

/-! ## How expressions begin -/

namespace TokenKind

/-- A token with which something that can be selected from begins. -/
def beginsTarget : TokenKind → Bool
  | number _ => true
  | text _ => true
  | identifier _ => true
  | punctuation c => c = '(' || c = '[' || c = '\x7b'
  | _ => false

/-- A token with which an expression begins. -/
def beginsExpr (kind : TokenKind) : Bool :=
  kind = .operator .not || kind.beginsTarget

theorem beginsExpr_of_beginsTarget {kind : TokenKind} (h : kind.beginsTarget) :
    kind.beginsExpr := by
  unfold beginsExpr
  rw [h, Bool.or_true]

end TokenKind

namespace Expr

/-- The tokens of an expression that something is selected from. -/
def targetKinds (expr : Expr) : List TokenKind :=
  enclosed expr.isOperation expr.kinds

/-- The tokens of an expression that is an operand. -/
def operandKinds (expr : Expr) : List TokenKind :=
  enclosed expr.isBinary expr.kinds

theorem targetKinds_eq_kinds {expr : Expr} (h : expr.isOperation = false) :
    expr.targetKinds = expr.kinds := by
  unfold targetKinds enclosed
  rw [h]
  rfl

theorem operandKinds_eq_kinds {expr : Expr} (h : expr.isBinary = false) :
    expr.operandKinds = expr.kinds := by
  unfold operandKinds enclosed
  rw [h]
  rfl

theorem exists_targetKinds_eq_cons : ∀ expr : Expr,
    ∃ kind kinds, expr.targetKinds = kind :: kinds ∧ kind.beginsTarget
  | literal value _ => by
    refine ⟨value.kind, [], rfl, ?_⟩
    rcases value with _ | _ | _ | (_ | _) | _ <;> rfl
  | var name _ => ⟨_, _, rfl, rfl⟩
  | not operand _ => ⟨_, _, rfl, rfl⟩
  | binary left op right _ => ⟨_, _, rfl, rfl⟩
  | call callee arguments _ => ⟨_, _, rfl, rfl⟩
  | array elements _ => ⟨_, _, rfl, rfl⟩
  | object fields _ => ⟨_, _, rfl, rfl⟩
  | index target selector _ => by
    obtain ⟨kind, kinds, htarget, hkind⟩ := target.exists_targetKinds_eq_cons
    show ∃ _ _, target.targetKinds ++ _ = _ ∧ _
    rw [htarget]
    exact ⟨kind, _, rfl, hkind⟩
  | member target property _ => by
    obtain ⟨kind, kinds, htarget, hkind⟩ := target.exists_targetKinds_eq_cons
    show ∃ _ _, target.targetKinds ++ _ = _ ∧ _
    rw [htarget]
    exact ⟨kind, _, rfl, hkind⟩

theorem exists_kinds_eq_cons_of_not_isOperation {expr : Expr} (h : expr.isOperation = false) :
    ∃ kind kinds, expr.kinds = kind :: kinds ∧ kind.beginsExpr := by
  obtain ⟨kind, kinds, htarget, hkind⟩ := expr.exists_targetKinds_eq_cons
  rw [targetKinds_eq_kinds h] at htarget
  exact ⟨kind, kinds, htarget, TokenKind.beginsExpr_of_beginsTarget hkind⟩

theorem exists_kinds_eq_cons : ∀ expr : Expr,
    ∃ kind kinds, expr.kinds = kind :: kinds ∧ kind.beginsExpr
  | not operand _ => ⟨_, _, rfl, rfl⟩
  | binary left op right _ => by
    obtain ⟨kind, kinds, hleft, hkind⟩ := left.exists_kinds_eq_cons
    show ∃ _ _, left.kinds ++ _ = _ ∧ _
    rw [hleft]
    exact ⟨kind, _, rfl, hkind⟩
  | literal _ _ => exists_kinds_eq_cons_of_not_isOperation rfl
  | var _ _ => exists_kinds_eq_cons_of_not_isOperation rfl
  | call _ _ _ => exists_kinds_eq_cons_of_not_isOperation rfl
  | array _ _ => exists_kinds_eq_cons_of_not_isOperation rfl
  | object _ _ => exists_kinds_eq_cons_of_not_isOperation rfl
  | index _ _ _ => exists_kinds_eq_cons_of_not_isOperation rfl
  | member _ _ _ => exists_kinds_eq_cons_of_not_isOperation rfl

/-! ## Reading expressions -/

/-- Tokens of these kinds are read as the expression, and selections from it are read on. -/
def ReadsTarget (kinds : List TokenKind) (expr : Expr) : Prop :=
  ∀ tokens rest, tokens.map (·.kind) = kinds → StartsNot TokenKind.opens rest →
    ∃ read : Expr, read.unplaced = expr.unplaced ∧
      (Grammar.operand (tokens ++ rest)).outcome = (Grammar.selections read rest).outcome

/-- Tokens of these kinds are read as the operand. -/
def ReadsOperand (kinds : List TokenKind) (expr : Expr) : Prop :=
  Reads TokenKind.selects unplaced Grammar.unary kinds expr.unplaced

/-- Tokens of these kinds are read as the expression, and the chain is read on. -/
def ReadsChain (kinds : List TokenKind) (expr : Expr) : Prop :=
  ∀ tokens rest, tokens.map (·.kind) = kinds → StartsNot TokenKind.selects rest →
    ∃ read : Expr, read.unplaced = expr.unplaced ∧
      (Grammar.expression (tokens ++ rest)).outcome = (Grammar.chain read rest).outcome

/-- Tokens of these kinds are read as the expression, when nothing continues it. -/
def ReadsWhole (kinds : List TokenKind) (expr : Expr) : Prop :=
  Reads TokenKind.continues unplaced Grammar.expression kinds expr.unplaced

variable {expr : Expr} {kinds : List TokenKind}

theorem ReadsTarget.operand (h : expr.ReadsTarget kinds)
    (hhead : ∃ kind others, kinds = kind :: others ∧ kind.beginsTarget) :
    expr.ReadsOperand kinds := by
  intro tokens rest htokens hrest
  obtain ⟨read, hread, houtcome⟩ :=
    h tokens rest htokens (hrest.mono TokenKind.opens_of_selects)
  refine ⟨read, hread, ?_⟩
  obtain ⟨kind, others, rfl, hkind⟩ := hhead
  obtain ⟨token, behind, rfl, htoken, -⟩ := exists_of_map_kind_eq_cons htokens
  have hnot : token.kind ≠ .operator .not := by
    intro heq
    rw [← htoken, heq] at hkind
    exact nomatch hkind
  rw [List.cons_append, Grammar.outcome_unary_operand (startsNot_cons.2 (decide_eq_false hnot)),
    ← List.cons_append, houtcome]
  exact Grammar.outcome_selections_stops (hrest.mono TokenKind.picks_of_selects) read

theorem ReadsOperand.chain (h : expr.ReadsOperand kinds) : expr.ReadsChain kinds := by
  intro tokens rest htokens hrest
  obtain ⟨read, hread, houtcome⟩ := h tokens rest htokens hrest
  exact ⟨read, hread, Grammar.outcome_expression houtcome⟩

theorem ReadsChain.whole (h : expr.ReadsChain kinds) : expr.ReadsWhole kinds := by
  intro tokens rest htokens hrest
  obtain ⟨read, hread, houtcome⟩ :=
    h tokens rest htokens (hrest.mono TokenKind.selects_of_continues)
  exact ⟨read, hread, houtcome.trans
    (Grammar.outcome_chain_stops (hrest.mono TokenKind.joins_of_continues) read)⟩

/-- Brackets around an expression make it something that can be selected from. -/
theorem ReadsWhole.enclosed (h : expr.ReadsWhole kinds) :
    expr.ReadsTarget (enclosed true kinds) := by
  intro tokens rest htokens _
  obtain ⟨opening, tokens, rfl, hopening, htokens⟩ := exists_of_map_kind_eq_cons htokens
  obtain ⟨inner, closing, behind, rfl, hinner, hclosing, hbehind⟩ :=
    exists_of_map_kind_eq_append htokens
  obtain rfl := List.map_eq_nil_iff.1 hbehind
  obtain ⟨read, hread, houtcome⟩ := h inner (closing :: rest) hinner
    (startsNot_cons.2 (by rw [hclosing]; rfl))
  refine ⟨read, hread, ?_⟩
  rw [List.cons_append, List.append_assoc, List.singleton_append]
  exact Grammar.outcome_operand (Grammar.outcome_primary_parentheses hopening houtcome hclosing)

/-- What is printed at each level is read back by the routine for it. -/
structure Readable (expr : Expr) : Prop where
  target : expr.ReadsTarget expr.targetKinds
  operand : expr.ReadsOperand expr.operandKinds
  chain : expr.ReadsChain expr.kinds

/-- What can be selected from is an operand, and an operand is a chain of its own. -/
theorem ReadsTarget.readable (hkind : expr.isOperation = false)
    (h : expr.ReadsTarget expr.kinds) : expr.Readable := by
  have hbinary : expr.isBinary = false := by
    cases expr <;> first | rfl | exact nomatch hkind
  have hhead := expr.exists_targetKinds_eq_cons
  rw [targetKinds_eq_kinds hkind] at hhead
  have hoperand := h.operand hhead
  refine ⟨?_, ?_, hoperand.chain⟩
  · rw [targetKinds_eq_kinds hkind]
    exact h
  · rw [operandKinds_eq_kinds hbinary]
    exact hoperand

/-- A negation is an operand; to select from it takes brackets. -/
theorem ReadsOperand.readable {operand : Expr} {p : Position}
    (h : (not operand p).ReadsOperand (not operand p).kinds) : (not operand p).Readable :=
  ⟨h.chain.whole.enclosed, h, h.chain⟩

/-- To use a chain as an operand takes brackets, and to select from it, too. -/
theorem ReadsChain.readable {left right : Expr} {op : Operator} {p : Position}
    (h : (binary left op right p).ReadsChain (binary left op right p).kinds) :
    (binary left op right p).Readable :=
  ⟨h.whole.enclosed, h.whole.enclosed.operand ⟨_, _, rfl, rfl⟩, h⟩

/-! ### The forms of expressions -/

theorem readable_literal (value : Literal) (p : Position) : (literal value p).Readable := by
  refine ReadsTarget.readable rfl fun tokens rest htokens _ => ?_
  obtain ⟨token, behind, rfl, htoken, hbehind⟩ := exists_of_map_kind_eq_cons htokens
  obtain rfl := List.map_eq_nil_iff.1 hbehind
  exact ⟨literal value token.position, rfl,
    Grammar.outcome_operand (Grammar.outcome_primary_literal htoken)⟩

theorem readable_var {name : String} (hname : Bindable name) (p : Position) :
    (var name p).Readable := by
  refine ReadsTarget.readable rfl fun tokens rest htokens hrest => ?_
  obtain ⟨token, behind, rfl, htoken, hbehind⟩ := exists_of_map_kind_eq_cons htokens
  obtain rfl := List.map_eq_nil_iff.1 hbehind
  exact ⟨var name token.position, rfl,
    Grammar.outcome_operand (Grammar.outcome_primary_var htoken hname hrest)⟩

theorem readable_not {operand : Expr} (h : operand.Readable) (p : Position) :
    (not operand p).Readable := by
  refine ReadsOperand.readable fun tokens rest htokens hrest => ?_
  obtain ⟨token, behind, rfl, htoken, hbehind⟩ := exists_of_map_kind_eq_cons htokens
  obtain ⟨read, hread, houtcome⟩ := h.operand behind rest hbehind hrest
  refine ⟨not read token.position, ?_, Grammar.outcome_unary_not htoken houtcome⟩
  rw [unplaced, unplaced, hread]

theorem readable_binary {left right : Expr} {op : Operator} (hop : op.isBinary)
    (hleft : left.Readable) (hright : right.Readable) (p : Position) :
    (binary left op right p).Readable := by
  refine ReadsChain.readable fun tokens rest htokens hrest => ?_
  obtain ⟨front, token, behind, rfl, hfront, htoken, hbehind⟩ :=
    exists_of_map_kind_eq_append htokens
  obtain ⟨read, hread, houtcome⟩ := hleft.chain front (token :: (behind ++ rest)) hfront
    (startsNot_cons.2 (by rw [htoken]; rfl))
  obtain ⟨read', hread', houtcome'⟩ := hright.operand behind rest hbehind hrest
  refine ⟨binary read op read' token.position, ?_, ?_⟩
  · rw [unplaced, unplaced, hread, hread']
  · rw [List.append_assoc, List.cons_append, houtcome]
    exact Grammar.outcome_chain_binary htoken hop houtcome'

theorem readable_index {target selector : Expr} (htarget : target.Readable)
    (hselector : selector.Readable) (p : Position) : (index target selector p).Readable := by
  refine ReadsTarget.readable rfl fun tokens rest htokens hrest => ?_
  obtain ⟨front, opening, behind, rfl, hfront, hopening, hbehind⟩ :=
    exists_of_map_kind_eq_append htokens
  obtain ⟨inner, closing, others, rfl, hinner, hclosing, hothers⟩ :=
    exists_of_map_kind_eq_append hbehind
  obtain rfl := List.map_eq_nil_iff.1 hothers
  obtain ⟨read, hread, houtcome⟩ := htarget.target front (opening :: (inner ++ closing :: rest))
    hfront (startsNot_cons.2 (by rw [hopening]; rfl))
  obtain ⟨read', hread', houtcome'⟩ := hselector.chain.whole inner (closing :: rest) hinner
    (startsNot_cons.2 (by rw [hclosing]; rfl))
  refine ⟨index read read' opening.position, ?_, ?_⟩
  · rw [unplaced, unplaced, hread, hread']
  · rw [List.append_assoc, List.cons_append, List.append_assoc, List.singleton_append, houtcome]
    exact Grammar.outcome_selections_index hopening houtcome' hclosing

theorem readable_member {target : Expr} (htarget : target.Readable) (property : String)
    (p : Position) : (member target property p).Readable := by
  refine ReadsTarget.readable rfl fun tokens rest htokens hrest => ?_
  obtain ⟨front, point, behind, rfl, hfront, hpoint, hbehind⟩ :=
    exists_of_map_kind_eq_append htokens
  obtain ⟨name, others, rfl, hname, hothers⟩ := exists_of_map_kind_eq_cons hbehind
  obtain rfl := List.map_eq_nil_iff.1 hothers
  obtain ⟨read, hread, houtcome⟩ := htarget.target front (point :: name :: rest) hfront
    (startsNot_cons.2 (by rw [hpoint]; rfl))
  refine ⟨member read property name.position, ?_, ?_⟩
  · rw [unplaced, unplaced, hread]
  · rw [List.append_assoc, List.cons_append, List.singleton_append, houtcome]
    exact Grammar.outcome_selections_member hpoint hname

/-! ### Lists of expressions -/

theorem kindsAll_eq_map (exprs : List Expr) : kindsAll exprs = exprs.map (·.kinds) := by
  induction exprs with
  | nil => rfl
  | cons expr exprs ih => rw [kindsAll, ih, List.map_cons]

theorem unplacedAll_eq_map (exprs : List Expr) : unplacedAll exprs = exprs.map (·.unplaced) := by
  induction exprs with
  | nil => rfl
  | cons expr exprs ih => rw [unplacedAll, ih, List.map_cons]

theorem kindsFields_eq_map (fields : List (String × Expr)) :
    kindsFields fields =
      fields.map fun (key, expr) => .text key :: .punctuation ':' :: expr.kinds := by
  induction fields with
  | nil => rfl
  | cons field fields ih => rw [kindsFields, ih, List.map_cons]

theorem unplacedFields_eq_map (fields : List (String × Expr)) :
    unplacedFields fields = fields.map fun (key, expr) => (key, expr.unplaced) := by
  induction fields with
  | nil => rfl
  | cons field fields ih => rw [unplacedFields, ih, List.map_cons]

theorem reads_all {closing : Char} (hstops : (TokenKind.punctuation closing).continues = false)
    (hcomma : closing ≠ ',') (hclosing : (TokenKind.punctuation closing).beginsExpr = false)
    {exprs : List Expr} (h : ∀ expr ∈ exprs, expr.Readable) :
    Reads TokenKind.never unplacedAll
      (fun tokens => Reply.items closing tokens fun rest _ => Grammar.expression rest)
      (separated (kindsAll exprs) ++ [.punctuation closing]) (unplacedAll exprs) := by
  have hitems := Grammar.reads_items closing unplaced Grammar.expression hstops hcomma
    (exprs.map fun expr => ⟨expr.kinds, expr.unplaced⟩) ?_ ?_
  · rw [List.map_map, List.map_map] at hitems
    rw [kindsAll_eq_map, unplacedAll_eq_map, funext unplacedAll_eq_map]
    exact hitems
  · intro item hitem
    obtain ⟨expr, hexpr, rfl⟩ := List.mem_map.1 hitem
    exact (h expr hexpr).chain.whole
  · intro item hitem
    obtain ⟨expr, hexpr, rfl⟩ := List.mem_map.1 hitem
    obtain ⟨kind, kinds, hkinds, hkind⟩ := expr.exists_kinds_eq_cons
    refine ⟨kind, kinds, hkinds, ?_⟩
    rintro rfl
    rw [hclosing] at hkind
    exact nomatch hkind

theorem Readable.reads_field {expr : Expr} (h : expr.Readable) (key : String) :
    Reads TokenKind.continues (fun (key, expr) => (key, expr.unplaced)) Grammar.field
      (.text key :: .punctuation ':' :: expr.kinds) (key, expr.unplaced) := by
  intro tokens rest htokens hrest
  obtain ⟨token, behind, rfl, htoken, hbehind⟩ := exists_of_map_kind_eq_cons htokens
  obtain ⟨colon, inner, rfl, hcolon, hinner⟩ := exists_of_map_kind_eq_cons hbehind
  obtain ⟨read, hread, houtcome⟩ := h.chain.whole inner rest hinner hrest
  exact ⟨(key, read), congrArg (key, ·) hread, Grammar.outcome_field (.inr htoken) hcolon houtcome⟩

theorem reads_fields {fields : List (String × Expr)} (h : ∀ field ∈ fields, field.2.Readable) :
    Reads TokenKind.never unplacedFields
      (fun tokens => Reply.items '\x7d' tokens fun rest _ => Grammar.field rest)
      (separated (kindsFields fields) ++ [.punctuation '\x7d']) (unplacedFields fields) := by
  have hitems := Grammar.reads_items '\x7d'
    (fun ((key, expr) : String × Expr) => (key, expr.unplaced)) Grammar.field rfl (by decide)
    (fields.map fun (key, expr) =>
      ⟨.text key :: .punctuation ':' :: expr.kinds, (key, expr.unplaced)⟩) ?_ ?_
  · rw [List.map_map, List.map_map] at hitems
    rw [kindsFields_eq_map, unplacedFields_eq_map, funext unplacedFields_eq_map]
    exact hitems
  · intro item hitem
    obtain ⟨⟨key, expr⟩, hexpr, rfl⟩ := List.mem_map.1 hitem
    exact (h (key, expr) hexpr).reads_field key
  · intro item hitem
    obtain ⟨⟨key, expr⟩, hexpr, rfl⟩ := List.mem_map.1 hitem
    exact ⟨_, _, rfl, fun heq => nomatch heq⟩

theorem readable_call {callee : String} {arguments : List Expr} (hcallee : Bindable callee)
    (h : ∀ expr ∈ arguments, expr.Readable) (p : Position) :
    (call callee arguments p).Readable := by
  refine ReadsTarget.readable rfl fun tokens rest htokens _ => ?_
  obtain ⟨token, behind, rfl, htoken, hbehind⟩ := exists_of_map_kind_eq_cons htokens
  obtain ⟨opening, inner, rfl, hopening, hinner⟩ := exists_of_map_kind_eq_cons hbehind
  obtain ⟨read, hread, houtcome⟩ :=
    reads_all rfl (by decide) rfl h inner rest hinner (startsNot_never rest)
  refine ⟨call callee read token.position, ?_, ?_⟩
  · rw [unplaced, unplaced, hread]
  · exact Grammar.outcome_operand
      (Grammar.outcome_primary_call htoken hcallee hopening houtcome)

theorem readable_array {elements : List Expr} (h : ∀ expr ∈ elements, expr.Readable)
    (p : Position) : (array elements p).Readable := by
  refine ReadsTarget.readable rfl fun tokens rest htokens _ => ?_
  obtain ⟨token, inner, rfl, htoken, hinner⟩ := exists_of_map_kind_eq_cons htokens
  obtain ⟨read, hread, houtcome⟩ :=
    reads_all rfl (by decide) rfl h inner rest hinner (startsNot_never rest)
  refine ⟨array read token.position, ?_, ?_⟩
  · rw [unplaced, unplaced, hread]
  · exact Grammar.outcome_operand (Grammar.outcome_primary_array htoken houtcome)

theorem readable_object {fields : List (String × Expr)} (h : ∀ field ∈ fields, field.2.Readable)
    (p : Position) : (object fields p).Readable := by
  refine ReadsTarget.readable rfl fun tokens rest htokens _ => ?_
  obtain ⟨token, inner, rfl, htoken, hinner⟩ := exists_of_map_kind_eq_cons htokens
  obtain ⟨read, hread, houtcome⟩ := reads_fields h inner rest hinner (startsNot_never rest)
  refine ⟨object read token.position, ?_, ?_⟩
  · rw [unplaced, unplaced, hread]
  · exact Grammar.outcome_operand (Grammar.outcome_primary_object htoken houtcome)

mutual

/-- Every well-formed expression is read back as it was printed. -/
theorem readable_of_wellFormed : ∀ expr : Expr, expr.WellFormed → expr.Readable
  | literal value p, _ => readable_literal value p
  | var _ p, h => readable_var h p
  | not operand p, h => readable_not (readable_of_wellFormed operand h) p
  | binary left _ right p, h =>
    readable_binary h.1 (readable_of_wellFormed left h.2.1) (readable_of_wellFormed right h.2.2) p
  | call _ arguments p, h => readable_call h.1 (readable_of_allWellFormed arguments h.2) p
  | array elements p, h => readable_array (readable_of_allWellFormed elements h) p
  | object fields p, h => readable_object (readable_of_fieldsWellFormed fields h) p
  | index target selector p, h =>
    readable_index (readable_of_wellFormed target h.1) (readable_of_wellFormed selector h.2) p
  | member target property p, h => readable_member (readable_of_wellFormed target h) property p

theorem readable_of_allWellFormed :
    ∀ exprs : List Expr, AllWellFormed exprs → ∀ expr ∈ exprs, expr.Readable
  | [], _ => fun _ hmem => nomatch hmem
  | expr :: exprs, h =>
    List.forall_mem_cons.2
      ⟨readable_of_wellFormed expr h.1, readable_of_allWellFormed exprs h.2⟩

theorem readable_of_fieldsWellFormed :
    ∀ fields : List (String × Expr), FieldsWellFormed fields → ∀ field ∈ fields, field.2.Readable
  | [], _ => fun _ hmem => nomatch hmem
  | (_, expr) :: fields, h =>
    List.forall_mem_cons.2
      ⟨readable_of_wellFormed expr h.1, readable_of_fieldsWellFormed fields h.2⟩

end

/-- Every well-formed expression is read back whole, unless what follows continues it. -/
theorem WellFormed.reads {expr : Expr} (h : expr.WellFormed) : expr.ReadsWhole expr.kinds :=
  (readable_of_wellFormed expr h).chain.whole

end Expr

end Arrow
