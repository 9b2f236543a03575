import Arrow.Proofs.Evaluation.Nodes
import Arrow.Proofs.Grammar.Soundness

/-!
# The nodes of what is read

A reader makes each node of a program by one rule of the grammar. What all these rules guarantee of
the nodes that they make holds of all nodes of a program that is parsed, at any depth
(`Grammar.NodeRules.all_of_parse`).
-/

namespace Arrow

namespace Grammar

variable {E : Expr → Prop} {S : Statement → Prop}

/--
The nodes that the grammar makes are such that `E` holds of the expressions and `S` of the
statements.
-/
structure NodeRules (E : Expr → Prop) (S : Statement → Prop) : Prop where
  literal : ∀ value p, E (.literal value p)
  var : ∀ {name} p, Bindable name → E (.var name p)
  not : ∀ operand p, E (.not operand p)
  binary : ∀ {op} left right p, op.isBinary → E (.binary left op right p)
  call : ∀ {name} arguments p, Bindable name → E (.call name arguments p)
  array : ∀ elements p, E (.array elements p)
  object : ∀ fields p, E (.object fields p)
  index : ∀ target selector p, E (.index target selector p)
  member : ∀ target property p, E (.member target property p)
  declaration : ∀ {p kind word ts r rest}, Derives (.declaration p kind word) ts r rest → S r
  assignment : ∀ {name} value p, Bindable name → S (.assignment name value p)
  function : ∀ {p word ts head rest}, Derives (.header p word) ts head rest → ∀ body,
    S (.function ⟨head.name, head.params, head.returnType, body, p⟩)
  returnValue : ∀ value p, S (.returnValue value p)
  expression : ∀ expr p, S (.expression expr p)
  conditional : ∀ first others otherwise p, S (.conditional (first :: others) otherwise p)
  whileLoop : ∀ condition body p, S (.whileLoop condition body p)
  forLoop : ∀ init condition update body p, S (.forLoop init condition update body p)

/-- `E` holds of all nodes of what stands in a list; a parameter has none. -/
def Entry.All (E : Expr → Prop) : (e : Entry) → e.Value → Prop
  | expression, expr => expr.All E
  | field, (_, expr) => expr.All E
  | parameter, _ => True

def Entry.AllIn (E : Expr → Prop) : (e : Entry) → List e.Value → Prop
  | expression, exprs => Expr.AllIn E exprs
  | field, fields => Expr.AllInFields E fields
  | parameter, _ => True

theorem Entry.allIn_nil (e : Entry) : e.AllIn E [] := by
  cases e <;> exact trivial

theorem Entry.allIn_cons {e : Entry} {value : e.Value} {values : List e.Value}
    (hvalue : e.All E value) (hvalues : e.AllIn E values) : e.AllIn E (value :: values) := by
  cases e with
  | expression => exact ⟨hvalue, hvalues⟩
  | field => exact ⟨hvalue, hvalues⟩
  | parameter => trivial

/-- `E` and `S` hold of all nodes of the result, if they do of those that had been read before. -/
def Nonterminal.All (E : Expr → Prop) (S : Statement → Prop) : (n : Nonterminal) → n.Result → Prop
  | entry e, r => e.All E r
  | items _ e, rs => e.AllIn E rs
  | itemsUntil _ e, rs => e.AllIn E rs
  | chain left, r => left.All E → r.All E
  | unary, r => r.All E
  | selections target, r => target.All E → r.All E
  | primary, r => r.All E
  | declaration _ _ _, r => r.All E S
  | statement, r => r.All E S
  | block, body => Statement.AllIn E S body
  | statements, body => Statement.AllIn E S body
  | branch, r => Statement.AllInBranches E S [r]
  | otherBranches, (others, otherwise) =>
    Statement.AllInBranches E S others ∧ Statement.AllInOtherwise E S otherwise
  | declaredType, _ => True
  | optionalType _, _ => True
  | parameterName _ _, _ => True
  | header _ _, _ => True

theorem allInBranches_cons {first : Branch} {others : List Branch}
    (hfirst : Statement.AllInBranches E S [first]) (hothers : Statement.AllInBranches E S others) :
    Statement.AllInBranches E S (first :: others) := by
  cases first
  exact ⟨hfirst.1, hfirst.2.1, hothers⟩

variable {n : Nonterminal} {ts rest : List Token}

/-- The induction is on the derivation: its last rule makes the outermost node. -/
theorem NodeRules.all (h : NodeRules E S) {r : n.Result} (hr : Derives n ts r rest) :
    n.All E S r := by
  induction hr with
  | items_nil => exact Entry.allIn_nil _
  | items_cons _ _ ih => exact ih
  | itemsUntil_last _ _ ih => exact Entry.allIn_cons ih (Entry.allIn_nil _)
  | itemsUntil_more _ _ ih₁ ih₂ => exact Entry.allIn_cons ih₁ ih₂
  | expression _ _ ih₁ ih₂ => exact ih₂ ih₁
  | chain_end _ => exact id
  | chain_binary hop _ _ ih₁ ih₂ => exact fun hleft => ih₂ ⟨h.binary _ _ _ hop, hleft, ih₁⟩
  | unary_not _ ih => exact ⟨h.not _ _, ih⟩
  | unary_operand _ _ _ ih₁ ih₂ => exact ih₂ ih₁
  | selections_end _ => exact id
  | selections_index _ _ ih₁ ih₂ => exact fun htarget => ih₂ ⟨h.index _ _ _, htarget, ih₁⟩
  | selections_member _ ih => exact fun htarget => ih ⟨h.member _ _ _, htarget⟩
  | primary_literal => exact h.literal _ _
  | primary_var hname _ => exact h.var _ hname
  | primary_call hname _ ih => exact ⟨h.call _ _ hname, ih⟩
  | primary_parentheses _ ih => exact ih
  | primary_array _ ih => exact ⟨h.array _ _, ih⟩
  | primary_object _ ih => exact ⟨h.object _ _, ih⟩
  | field _ _ ih => exact ih
  | declaredType_const => trivial
  | declaredType_plain _ => trivial
  | optionalType_none _ => trivial
  | optionalType_some _ _ => trivial
  | @declaration_value _ _ _ _ text _ _ p₁ _ _ _ _ _ hname h₁ h₂ _ ih =>
    have hr : Derives _ (⟨.identifier _, text, p₁⟩ :: _) _ _ := .declaration_value hname h₁ h₂
    exact ⟨h.declaration hr, ih⟩
  | @declaration_absent _ _ _ _ text _ p₁ _ _ hname h₁ hsign _ =>
    have hr : Derives _ (⟨.identifier _, text, p₁⟩ :: _) _ _ := .declaration_absent hname h₁ hsign
    exact ⟨h.declaration hr, h.literal _ _⟩
  | parameter_const _ _ => trivial
  | parameter_var _ _ => trivial
  | parameter_plain _ _ => trivial
  | parameterName _ _ _ => trivial
  | header _ _ _ _ _ => trivial
  | statement_var _ ih => exact ih
  | statement_const _ ih => exact ih
  | statement_function hhead _ _ ih => exact ⟨h.function hhead _, ih⟩
  | statement_return _ _ _ ih => exact ⟨h.returnValue _ _, ih⟩
  | statement_returnAbsent _ => exact ⟨h.returnValue _ _, h.literal _ _⟩
  | statement_conditional _ _ ih₁ ih₂ =>
    exact ⟨h.conditional _ _ _ _, allInBranches_cons ih₁ ih₂.1, ih₂.2⟩
  | statement_while _ ih => exact ⟨h.whileLoop _ _ _, ih.1, ih.2.1⟩
  | statement_for _ _ _ _ ih₁ ih₂ ih₃ ih₄ => exact ⟨h.forLoop _ _ _ _ _, ih₁, ih₂, ih₃, ih₄⟩
  | statement_declaration _ ih => exact ih
  | statement_assignment hname _ ih => exact ⟨h.assignment _ _ hname, ih⟩
  | statement_expression _ ih => exact ⟨h.expression _ _, ih⟩
  | block _ ih => exact ih
  | statements_nil => trivial
  | statements_cons _ _ ih₁ ih₂ => exact ⟨ih₁, ih₂⟩
  | branch _ _ ih₁ ih₂ => exact ⟨ih₁, ih₂, trivial⟩
  | otherBranches_elif _ _ ih₁ ih₂ => exact ⟨allInBranches_cons ih₁ ih₂.1, ih₂.2⟩
  | otherBranches_else _ ih => exact ⟨trivial, ih⟩
  | otherBranches_none _ => exact ⟨trivial, trivial⟩

theorem NodeRules.allIn (h : NodeRules E S) {body : List Statement}
    (hbody : DerivesProgram ts body) : Statement.AllIn E S body := by
  induction hbody with
  | nil => trivial
  | endOfInput => trivial
  | cons hfirst _ ih => exact ⟨h.all hfirst, ih⟩

theorem NodeRules.all_of_parse (h : NodeRules E S) {program : Program}
    (hparse : parse ts = .ok program) : program.All E S :=
  h.allIn (derivesProgram_of_parse hparse)

end Grammar

end Arrow
