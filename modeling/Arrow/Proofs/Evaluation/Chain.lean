import Arrow.Evaluation.Expression
import Arrow.Proofs.Grammar.Locality

/-!
# Chains of operands

Operators have no precedence: operands joined by operators are read as the tree that is nested to
the left, and this tree is evaluated by a loop over the operands, in which the value so far and the
value of the next operand are combined (`expression_leftToRight`). An operand is neither skipped nor
evaluated twice, whatever the operators and the values are.
-/

namespace Arrow

namespace Grammar

variable {n : Nonterminal} {ts rest later : List Token} {r : n.Result}

/-- What remains behind a form may be followed by anything, as long as something remains. -/
theorem Derives.append_of_ne_nil (h : Derives n ts r rest) (hrest : rest ≠ [])
    (later : List Token) : Derives n (ts ++ later) r (rest ++ later) := by
  obtain ⟨used, rfl, hexchange⟩ := h.exchanges
  obtain ⟨token, behind, rfl⟩ := List.exists_cons_of_ne_nil hrest
  rw [List.append_assoc]
  exact hexchange _ (.inl rfl)

/-- The forms whose end no operator can move. -/
def Nonterminal.isOperand : Nonterminal → Bool
  | items _ _ => true
  | itemsUntil _ _ => true
  | unary => true
  | selections _ => true
  | primary => true
  | _ => false

/-- What nothing follows may be followed by anything that does not select from it. -/
theorem Derives.append_of_isOperand (h : Derives n ts r rest) (hrest : rest = [])
    (hn : n.isOperand) (hlater : StartsNot TokenKind.selects later) :
    Derives n (ts ++ later) r later := by
  induction h with
  | items_nil =>
    subst hrest
    exact .items_nil
  | items_cons hstart h ih =>
    subst hrest
    obtain ⟨used, rfl, -⟩ := h.exchanges
    refine .items_cons ?_ (ih rfl rfl)
    rw [List.append_assoc]
    exact startsNot_append hstart (ne_nil_of_outcome (h.takes _ (Nat.le_refl _)))
  | itemsUntil_last hcomma h ih =>
    subst hrest
    exact .itemsUntil_last hcomma (h.append_of_ne_nil (List.cons_ne_nil _ _) later)
  | itemsUntil_more h₁ h₂ ih₁ ih₂ =>
    exact .itemsUntil_more (h₁.append_of_ne_nil (List.cons_ne_nil _ _) later) (ih₂ hrest rfl)
  | unary_not h ih => exact .unary_not (ih hrest rfl)
  | @unary_operand _ mid _ _ _ hstart h₁ h₂ ih₁ ih₂ =>
    obtain ⟨used, rfl, -⟩ := h₁.exchanges
    have hstart' : StartsNot (· = .operator .not) ((used ++ mid) ++ later) := by
      rw [List.append_assoc]
      exact startsNot_append hstart (ne_nil_of_outcome h₁.takes)
    refine .unary_operand hstart' ?_ (ih₂ hrest rfl)
    cases mid with
    | nil => exact ih₁ rfl rfl
    | cons token mid => exact h₁.append_of_ne_nil (List.cons_ne_nil _ _) later
  | selections_end h =>
    subst hrest
    exact .selections_end (hlater.mono TokenKind.picks_of_selects)
  | selections_index h₁ h₂ ih₁ ih₂ =>
    exact .selections_index (h₁.append_of_ne_nil (List.cons_ne_nil _ _) later) (ih₂ hrest rfl)
  | selections_member h ih => exact .selections_member (ih hrest rfl)
  | primary_literal =>
    subst hrest
    exact .primary_literal
  | primary_var hname h =>
    subst hrest
    exact .primary_var hname (hlater.mono TokenKind.opens_of_selects)
  | primary_call hname h ih => exact .primary_call hname (ih hrest rfl)
  | primary_parentheses h ih =>
    subst hrest
    exact .primary_parentheses (h.append_of_ne_nil (List.cons_ne_nil _ _) later)
  | primary_array h ih => exact .primary_array (ih hrest rfl)
  | primary_object h ih => exact .primary_object (ih hrest rfl)
  | _ => exact nomatch hn

end Grammar

/-! ## Reading a chain -/

/-- An operator and the operand behind it, with the tokens that the operand is read from. -/
structure Link where
  op : Operator
  spelling : String
  position : Position
  tokens : List Token
  operand : Expr

/-- The tokens of the operator and of the operand. -/
def Link.allTokens (link : Link) : List Token :=
  ⟨.operator link.op, link.spelling, link.position⟩ :: link.tokens

/-- The operator joins operands, and the operand is all that its tokens are read as. -/
structure Link.WellFormed (link : Link) : Prop where
  op : link.op.isBinary
  operand : (Grammar.unary link.tokens).outcome = (.ok link.operand, [])

/-- The tree of a chain that begins with the operand `first`. -/
def Expr.joined (first : Expr) (links : List Link) : Expr :=
  links.foldl (fun left link => .binary left link.op link.operand link.position) first

theorem Link.startsNot_selects (links : List Link) {rest : List Token}
    (hrest : StartsNot TokenKind.continues rest) :
    StartsNot TokenKind.selects (links.flatMap allTokens ++ rest) := by
  cases links with
  | nil => exact hrest.mono TokenKind.selects_of_continues
  | cons link links => exact startsNot_cons.2 rfl

theorem Link.derives_chain {links : List Link} (h : ∀ link ∈ links, link.WellFormed) (left : Expr)
    {rest : List Token} (hrest : StartsNot TokenKind.continues rest) :
    Grammar.Derives (.chain left) (links.flatMap allTokens ++ rest) (left.joined links) rest := by
  induction links generalizing left with
  | nil => exact .chain_end (hrest.mono TokenKind.joins_of_continues)
  | cons link links ih =>
    obtain ⟨hlink, hlinks⟩ := List.forall_mem_cons.1 h
    have hoperand := (Grammar.derives_unary hlink.operand).append_of_isOperand rfl rfl
      (startsNot_selects links hrest)
    rw [List.flatMap_cons, List.append_assoc]
    exact .chain_binary hlink.op hoperand (ih hlinks _)

/-! ## Evaluating a chain -/

/-- The loop over the operands of a chain. -/
theorem Expr.eval_joined (call : Calling) (first : Expr) (links : List Link) :
    (first.joined links).eval call = (do
      let mut result ← first.eval call
      for link in links do
        let value ← link.operand.eval call
        result ← Action.check (Value.binary link.op result value link.position)
      return result) := by
  induction links generalizing first with
  | nil => exact (bind_pure _).symm
  | cons link links ih =>
    change (Expr.joined (.binary first link.op link.operand link.position) links).eval call = _
    rw [ih, Expr.eval]
    simp only [List.forIn_cons, bind_assoc, pure_bind]

/--
Operands that are read by themselves are read as the tree nested to the left when binary operators
stand between them, and the tree is evaluated like the loop that takes the operands one by one: it
evaluates each of them, whatever the result so far is, until one of them or an operator fails.
-/
theorem expression_leftToRight {first : Expr} {ts : List Token} {links : List Link}
    (hfirst : (Grammar.unary ts).outcome = (.ok first, []))
    (hlinks : ∀ link ∈ links, link.WellFormed) :
    (∀ rest, StartsNot TokenKind.continues rest →
      (Grammar.expression (ts ++ (links.flatMap Link.allTokens ++ rest))).outcome =
        (.ok (first.joined links), rest)) ∧
    ∀ call : Calling, (first.joined links).eval call = (do
      let mut result ← first.eval call
      for link in links do
        let value ← link.operand.eval call
        result ← Action.check (Value.binary link.op result value link.position)
      return result) := by
  refine ⟨fun rest hrest => ?_, fun call => Expr.eval_joined call first links⟩
  have hunary := (Grammar.derives_unary hfirst).append_of_isOperand rfl rfl
    (Link.startsNot_selects links hrest)
  exact (Grammar.Derives.expression hunary (Link.derives_chain hlinks first hrest)).takes

/-- In `x <||> f() <*> !!y` the call is made even if `x` holds, and `<*>` applies to its result. -/
theorem expression_leftToRight_of_or :
    let tokens (kinds : List TokenKind) : List Token := kinds.map (Token.mk · "" .start)
    let x : Expr := .var "x" .start
    let y : Expr := .var "y" .start
    let links : List Link := [
      ⟨.or, "", .start, tokens [.identifier "f", .punctuation '(', .punctuation ')'],
        .call "f" [] .start⟩,
      ⟨.mul, "", .start, tokens [.operator .not, .identifier "y"], .not y .start⟩]
    (Grammar.unary (tokens [.identifier "x"])).outcome = (.ok x, []) ∧
      (∀ link ∈ links, link.WellFormed) ∧
      (Grammar.expression (tokens [.identifier "x", .operator .or, .identifier "f",
        .punctuation '(', .punctuation ')', .operator .mul, .operator .not,
        .identifier "y"])).outcome =
        (.ok (.binary (.binary x .or (.call "f" [] .start) .start) .mul (.not y .start) .start),
          []) ∧
      ∀ call : Calling, (x.joined links).eval call = (do
        let mut result ← x.eval call
        for link in links do
          let value ← link.operand.eval call
          result ← Action.check (Value.binary link.op result value link.position)
        return result) := by
  intro tokens x y links
  have hfirst : (Grammar.unary (tokens [.identifier "x"])).outcome = (.ok x, []) := by cbv
  have hlinks : ∀ link ∈ links, link.WellFormed :=
    List.forall_mem_cons.2 ⟨⟨rfl, by cbv⟩, List.forall_mem_singleton.2 ⟨rfl, by cbv⟩⟩
  obtain ⟨hread, heval⟩ := expression_leftToRight hfirst hlinks
  exact ⟨hfirst, hlinks, hread [] (startsNot_nil _), heval⟩

end Arrow
