import Arrow.Proofs.Evaluation.Occurrences
import Arrow.Proofs.Grammar.Locality

/-!
# The arrows of returns

A statement that returns bears the position of its arrow: where it occurs in a program that is
parsed, outside functions, the arrow is among the tokens (`parse_returnsAtArrows`).
-/

namespace Arrow

/-- Every return that occurs in the statements stands at an arrow among the tokens. -/
def ReturnsAtArrows (ts : List Token) (body : List Statement) : Prop :=
  ∀ statement ∈ body, ∀ expr p, (Statement.returnValue expr p).OccursIn statement →
    ∃ token ∈ ts, token.kind = .keyword .arrow ∧ token.position = p

namespace ReturnsAtArrows

variable {ts us : List Token} {body others : List Statement} {outer : Statement}

theorem nil (ts : List Token) : ReturnsAtArrows ts [] :=
  fun _ h => nomatch h

theorem mono (h : ReturnsAtArrows ts body) (hsubset : ts ⊆ us) : ReturnsAtArrows us body := by
  intro statement hstatement expr p hoccurs
  obtain ⟨token, hmem, htoken⟩ := h statement hstatement expr p hoccurs
  exact ⟨token, hsubset hmem, htoken⟩

theorem append (h : ReturnsAtArrows ts body) (h' : ReturnsAtArrows ts others) :
    ReturnsAtArrows ts (body ++ others) :=
  fun statement hstatement => (List.mem_append.1 hstatement).elim (h statement) (h' statement)

/-- A statement that does not return itself has the returns of those that stand in it. -/
theorem of_children (h : ReturnsAtArrows ts outer.children)
    (houter : ∀ expr p, outer ≠ .returnValue expr p) : ReturnsAtArrows ts [outer] := by
  intro statement hstatement expr p hoccurs
  obtain rfl := List.mem_singleton.1 hstatement
  cases hoccurs with
  | self => exact absurd rfl (houter expr p)
  | child hchild hinner => exact h _ hchild expr p hinner

theorem returnValue (text : String) (expr : Expr) (p : Position) :
    ReturnsAtArrows (⟨.keyword .arrow, text, p⟩ :: ts) [.returnValue expr p] := by
  intro statement hstatement expr' p' hoccurs
  obtain rfl := List.mem_singleton.1 hstatement
  cases hoccurs with
  | self => exact ⟨_, List.mem_cons_self, rfl, rfl⟩
  | child hchild _ => exact nomatch hchild

end ReturnsAtArrows

namespace Grammar

/-- The statements of what a nonterminal is read as. -/
def Nonterminal.statementsIn : (n : Nonterminal) → n.Result → List Statement
  | declaration _ _ _, r => [r]
  | statement, r => [r]
  | block, body => body
  | statements, body => body
  | branch, r => r.body
  | otherBranches, (others, otherwise) => others.flatMap (·.body) ++ otherwise.getD []
  | entry _, _ => []
  | items _ _, _ => []
  | itemsUntil _ _, _ => []
  | chain _, _ => []
  | unary, _ => []
  | selections _, _ => []
  | primary, _ => []
  | declaredType, _ => []
  | optionalType _, _ => []
  | parameterName _ _, _ => []
  | header _ _, _ => []

variable {n : Nonterminal} {ts rest : List Token}

theorem Derives.rest_subset {r : n.Result} (h : Derives n ts r rest) : rest ⊆ ts := by
  obtain ⟨used, rfl, -⟩ := h.exchanges
  exact List.subset_append_right _ _

theorem skipArrow_subset (ts : List Token) : skipArrow ts ⊆ ts := by
  unfold skipArrow
  split
  · exact List.tail_subset ts
  · exact List.Subset.refl ts

/-- The induction is on the derivation. -/
theorem Derives.returnsAtArrows {r : n.Result} (h : Derives n ts r rest) :
    ReturnsAtArrows ts (n.statementsIn r) := by
  induction h with
  | declaration_value _ _ _ => exact .of_children (.nil _) (by simp)
  | declaration_absent _ _ _ => exact .of_children (.nil _) (by simp)
  | statement_var _ ih => exact ih.mono (List.subset_cons_self _ _)
  | statement_const _ ih => exact ih.mono (List.subset_cons_self _ _)
  | statement_function _ _ _ _ => exact .of_children (.nil _) (by simp)
  | statement_return _ _ _ _ => exact .returnValue _ _ _
  | statement_returnAbsent _ => exact .returnValue _ _ _
  | statement_conditional h₁ _ ih₁ ih₂ =>
    have hall := ih₁.append (ih₂.mono h₁.rest_subset)
    refine .of_children ?_ (by simp)
    rw [Statement.children, List.flatMap_cons, List.append_assoc]
    exact hall.mono (List.subset_cons_self _ _)
  | statement_while _ ih =>
    exact .of_children (ih.mono (List.subset_cons_self _ _)) (by simp)
  | statement_for h₁ h₂ h₃ _ ih₁ _ ih₃ ih₄ =>
    have hinit := List.subset_of_cons_subset h₁.rest_subset
    have hcondition := List.Subset.trans (List.subset_of_cons_subset h₂.rest_subset) hinit
    have hupdate := List.Subset.trans h₃.rest_subset hcondition
    have hall := ih₁.append ((ih₃.mono hcondition).append (ih₄.mono hupdate))
    exact .of_children (hall.mono
      (List.Subset.trans (skipArrow_subset _) (List.subset_cons_self _ _))) (by simp)
  | statement_declaration _ ih => exact ih
  | statement_assignment _ _ _ => exact .of_children (.nil _) (by simp)
  | statement_expression _ _ => exact .of_children (.nil _) (by simp)
  | block _ ih => exact ih.mono (List.subset_cons_self _ _)
  | statements_nil => exact .nil _
  | statements_cons h₁ _ ih₁ ih₂ => exact ih₁.append (ih₂.mono h₁.rest_subset)
  | branch h₁ _ _ ih₂ =>
    exact ih₂.mono (List.Subset.trans h₁.rest_subset (skipArrow_subset _))
  | otherBranches_elif h₁ _ ih₁ ih₂ =>
    have hall := ih₁.append (ih₂.mono h₁.rest_subset)
    rw [Nonterminal.statementsIn, List.flatMap_cons, List.append_assoc]
    exact hall.mono (List.subset_cons_self _ _)
  | otherBranches_else _ ih => exact ih.mono (List.subset_cons_self _ _)
  | otherBranches_none _ => exact .nil _
  | _ => exact .nil _

theorem DerivesProgram.returnsAtArrows {body : List Statement} (h : DerivesProgram ts body) :
    ReturnsAtArrows ts body := by
  induction h with
  | nil => exact .nil _
  | endOfInput => exact .nil _
  | cons hfirst _ ih => exact hfirst.returnsAtArrows.append (ih.mono hfirst.rest_subset)

end Grammar

theorem parse_returnsAtArrows {ts : List Token} {program : Program}
    (h : parse ts = .ok program) : ReturnsAtArrows ts program.body :=
  (Grammar.derivesProgram_of_parse h).returnsAtArrows.mono (List.filter_subset_self _)

end Arrow
