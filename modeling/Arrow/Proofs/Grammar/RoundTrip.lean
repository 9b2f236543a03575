import Arrow.Grammar.Program
import Arrow.Proofs.Grammar.Statement

/-!
# Printing and parsing

A well-formed program that is printed to tokens is parsed as the same program, up to the positions
in it.
-/

namespace Arrow

/-! ## Printed tokens are no comments -/

theorem Literal.kind_ne_comment (value : Literal) : value.kind ≠ .comment := by
  rcases value with _ | _ | _ | (_ | _) | _ <;> exact TokenKind.noConfusion

namespace Expr

theorem comment_notMem_enclosed (needed : Bool) {kinds : List TokenKind}
    (h : TokenKind.comment ∉ kinds) : TokenKind.comment ∉ enclosed needed kinds := by
  unfold enclosed
  split
  case isTrue => simp [h]
  case isFalse => exact h

theorem comment_notMem_separated {parts : List (List TokenKind)}
    (h : ∀ part ∈ parts, TokenKind.comment ∉ part) : TokenKind.comment ∉ separated parts := by
  match parts with
  | [] => exact List.not_mem_nil
  | [part] =>
    rw [separated_singleton]
    exact h part List.mem_cons_self
  | part :: next :: parts =>
    have hpart := h part List.mem_cons_self
    have hrest := comment_notMem_separated fun other hother =>
      h other (List.mem_cons_of_mem _ hother)
    rw [separated_cons_cons]
    simp [hpart, hrest]

mutual

theorem comment_notMem_kinds : ∀ expr : Expr, TokenKind.comment ∉ expr.kinds
  | literal value _ => by simp [kinds, value.kind_ne_comment.symm]
  | var name _ => by simp [kinds]
  | not operand _ => by
    have hoperand := comment_notMem_enclosed operand.isBinary operand.comment_notMem_kinds
    simp [kinds, hoperand]
  | binary left op right _ => by
    have hright := comment_notMem_enclosed right.isBinary right.comment_notMem_kinds
    simp [kinds, left.comment_notMem_kinds, hright]
  | call callee arguments _ => by
    have harguments := comment_notMem_separated (comment_notMem_kindsAll arguments)
    simp [kinds, harguments]
  | array elements _ => by
    have helements := comment_notMem_separated (comment_notMem_kindsAll elements)
    simp [kinds, helements]
  | object fields _ => by
    have hfields := comment_notMem_separated (comment_notMem_kindsFields fields)
    simp [kinds, hfields]
  | index target selector _ => by
    have htarget := comment_notMem_enclosed target.isOperation target.comment_notMem_kinds
    simp [kinds, htarget, selector.comment_notMem_kinds]
  | member target property _ => by
    have htarget := comment_notMem_enclosed target.isOperation target.comment_notMem_kinds
    simp [kinds, htarget]

theorem comment_notMem_kindsAll :
    ∀ exprs : List Expr, ∀ part ∈ kindsAll exprs, TokenKind.comment ∉ part
  | [] => fun _ hmem => nomatch hmem
  | expr :: exprs =>
    List.forall_mem_cons.2 ⟨expr.comment_notMem_kinds, comment_notMem_kindsAll exprs⟩

theorem comment_notMem_kindsFields :
    ∀ fields : List (String × Expr), ∀ part ∈ kindsFields fields, TokenKind.comment ∉ part
  | [] => fun _ hmem => nomatch hmem
  | (_, expr) :: fields =>
    List.forall_mem_cons.2
      ⟨by simp [expr.comment_notMem_kinds], comment_notMem_kindsFields fields⟩

end

end Expr

theorem Mutability.marker_ne_comment (kind : Mutability) : kind.marker ≠ .comment := by
  cases kind <;> exact TokenKind.noConfusion

theorem DeclaredType.comment_notMem_kinds (type : Option DeclaredType) :
    TokenKind.comment ∉ DeclaredType.kinds type := by
  rcases type with _ | ⟨name, _ | _, p⟩ <;> simp [DeclaredType.kinds]

theorem Parameter.comment_notMem_kinds (param : Parameter) : TokenKind.comment ∉ param.kinds := by
  simp [Parameter.kinds, param.mutability.marker_ne_comment.symm,
    DeclaredType.comment_notMem_kinds param.type]

namespace Statement

theorem comment_notMem_braced {kinds : List TokenKind} (h : TokenKind.comment ∉ kinds) :
    TokenKind.comment ∉ braced kinds := by
  simp [braced, h]

mutual

theorem comment_notMem_kinds : ∀ statement : Statement, TokenKind.comment ∉ statement.kinds
  | declaration kind name type init _ => by
    simp [kinds, kind.marker_ne_comment.symm, DeclaredType.comment_notMem_kinds type,
      init.comment_notMem_kinds]
  | assignment name value _ => by simp [kinds, value.comment_notMem_kinds]
  | function ⟨name, params, returnType, body, _⟩ => by
    have hparams : TokenKind.comment ∉ Expr.separated (params.map (·.kinds)) := by
      refine Expr.comment_notMem_separated fun part hpart => ?_
      obtain ⟨param, -, rfl⟩ := List.mem_map.1 hpart
      exact param.comment_notMem_kinds
    have hbody := comment_notMem_braced (comment_notMem_kindsAll body)
    simp [kinds, hparams, DeclaredType.comment_notMem_kinds returnType, hbody]
  | returnValue value _ => by simp [kinds, value.comment_notMem_kinds]
  | expression expr _ => expr.comment_notMem_kinds
  | conditional branches otherwise _ => by
    simp [kinds, comment_notMem_kindsBranches _ branches, comment_notMem_kindsOtherwise otherwise]
  | whileLoop condition body _ => by
    have hbody := comment_notMem_braced (comment_notMem_kindsAll body)
    simp [kinds, condition.comment_notMem_kinds, hbody]
  | forLoop init condition update body _ => by
    have hbody := comment_notMem_braced (comment_notMem_kindsAll body)
    simp [kinds, init.comment_notMem_kinds, condition.comment_notMem_kinds,
      update.comment_notMem_kinds, hbody]

theorem comment_notMem_kindsAll :
    ∀ body : List Statement, TokenKind.comment ∉ kindsAll body
  | [] => List.not_mem_nil
  | statement :: body => by
    simp [kindsAll, statement.comment_notMem_kinds, comment_notMem_kindsAll body]

theorem comment_notMem_kindsBranches (word : Keyword) :
    ∀ branches : List Branch, TokenKind.comment ∉ kindsBranches word branches
  | [] => List.not_mem_nil
  | ⟨condition, body⟩ :: branches => by
    have hbody := comment_notMem_braced (comment_notMem_kindsAll body)
    simp [kindsBranches, condition.comment_notMem_kinds, hbody,
      comment_notMem_kindsBranches _ branches]

theorem comment_notMem_kindsOtherwise :
    ∀ otherwise : Option (List Statement), TokenKind.comment ∉ kindsOtherwise otherwise
  | none => List.not_mem_nil
  | some body => by
    have hbody := comment_notMem_braced (comment_notMem_kindsAll body)
    simp [kindsOtherwise, hbody]

end

end Statement

/-! ## Programs -/

/-- The first statement, if it fails, or else the others decide. -/
theorem statementsToEnd_of_begins {token : Token} {rest mid : List Token}
    (h : token.kind.beginsStatement) {result : Except ParseError Statement}
    (hfirst : (Grammar.statement (token :: rest)).outcome = (result, mid)) :
    statementsToEnd (token :: rest) =
      result.bind fun first => (statementsToEnd mid).map (first :: ·) := by
  rw [statementsToEnd]
  · cases hreply : Grammar.statement (token :: rest) with
    | ok value left hlt =>
      rw [hreply] at hfirst
      obtain ⟨rfl, rfl⟩ := Prod.mk.inj hfirst
      dsimp only [Except.bind]
      cases statementsToEnd left <;> rfl
    | error cause left =>
      rw [hreply] at hfirst
      obtain ⟨rfl, rfl⟩ := Prod.mk.inj hfirst
      rfl
  · exact List.cons_ne_nil _ _
  · rintro text p rest' heq
    obtain ⟨rfl, -⟩ := List.cons.inj heq
    cases h

theorem statementsToEnd_cons {token : Token} {rest inner : List Token} {first : Statement}
    {others : List Statement} (hstart : token.kind.beginsStatement)
    (hfirst : (Grammar.statement (token :: rest)).outcome = (.ok first, inner))
    (hothers : statementsToEnd inner = .ok others) :
    statementsToEnd (token :: rest) = .ok (first :: others) := by
  rw [statementsToEnd_of_begins hstart hfirst, hothers]
  rfl

/-- Statements up to the end of input are read back one after another. -/
theorem exists_statementsToEnd_eq {body : List Statement} (h : Statement.AllWellFormed body)
    {tokens : List Token}
    (htokens : tokens.map (·.kind) = Statement.kindsAll body ++ [.endOfInput]) :
    ∃ read, statementsToEnd tokens = .ok read ∧
      Statement.unplacedAll read = Statement.unplacedAll body := by
  induction body generalizing tokens with
  | nil =>
    obtain ⟨⟨_, text, p⟩, rest, rfl, hlast, -⟩ := exists_of_map_kind_eq_cons htokens
    obtain rfl := hlast
    exact ⟨[], by rw [statementsToEnd], rfl⟩
  | cons statement body ih =>
    rw [Statement.kindsAll, List.append_assoc] at htokens
    obtain ⟨front, behind, rfl, hfront, hbehind⟩ := List.map_eq_append_iff.1 htokens
    have hfollow := Statement.startsNot_continues_of_kindsAll h.2 rfl hbehind []
    rw [List.append_nil] at hfollow
    obtain ⟨first, hfirst, houtcome⟩ :=
      Statement.readable_of_wellFormed statement h.1 front behind hfront hfollow
    obtain ⟨others, houtcome', hothers⟩ := ih h.2 hbehind
    refine ⟨first :: others, ?_, ?_⟩
    · obtain ⟨kind, kinds, hkinds, hkind⟩ := statement.exists_kinds_eq_cons h.1
      rw [hkinds] at hfront
      obtain ⟨token, front, rfl, htoken, -⟩ := exists_of_map_kind_eq_cons hfront
      exact statementsToEnd_cons (by rw [htoken]; exact hkind) houtcome houtcome'
    · rw [Statement.unplacedAll, Statement.unplacedAll, hfirst, hothers]

/--
Tokens that spell a well-formed program, wherever they stand, are parsed as this program up to its
positions.
-/
theorem parse_printed {program : Program} (h : program.WellFormed) {tokens : List Token}
    (htokens : tokens.map (·.kind) = program.kinds ++ [.endOfInput]) :
    ∃ read, parse tokens = .ok read ∧ read.unplaced = program.unplaced := by
  have hcomment : tokens.filter (!·.isComment) = tokens := by
    refine List.filter_eq_self.2 fun token htoken => ?_
    have hmem : token.kind ∈ program.kinds ++ [.endOfInput] := by
      rw [← htokens]
      exact List.mem_map_of_mem htoken
    have hkind : token.kind ≠ .comment := by
      intro heq
      rw [heq] at hmem
      rcases List.mem_append.1 hmem with hmem | hmem
      · exact Statement.comment_notMem_kindsAll program.body hmem
      · exact nomatch List.mem_singleton.1 hmem
    unfold Token.isComment
    rw [decide_eq_false hkind]
    rfl
  obtain ⟨read, houtcome, hread⟩ := exists_statementsToEnd_eq h htokens
  refine ⟨⟨read⟩, ?_, ?_⟩
  · unfold parse
    rw [hcomment, houtcome]
    rfl
  · exact congrArg Program.mk hread

/-- The conditional `if -> f(x) \x7b -> a + (b * c) \x7d`, with all its tokens in one place. -/
theorem parse_printed_conditional :
    let product : Expr := .binary (.var "b" .start) .mul (.var "c" .start) .start
    let sum : Expr := .binary (.var "a" .start) .add product .start
    let program : Program := ⟨[.conditional
      [⟨.call "f" [.var "x" .start] .start, [.returnValue sum .start]⟩] none .start]⟩
    let tokens := (program.kinds ++ [TokenKind.endOfInput]).map (Token.mk · "" .start)
    program.WellFormed ∧ tokens.map (·.kind) = program.kinds ++ [.endOfInput] ∧
      ∃ read, parse tokens = .ok read ∧ read.unplaced = program.unplaced := by
  intro product sum program tokens
  have hwell : program.WellFormed := by
    simp [program, sum, product, Program.WellFormed, Statement.AllWellFormed,
      Statement.WellFormed, Statement.BranchesWellFormed, Statement.OtherwiseWellFormed,
      Expr.WellFormed, Expr.AllWellFormed, Bindable, Operator.isBinary]
  have htokens : tokens.map (·.kind) = program.kinds ++ [.endOfInput] := rfl
  exact ⟨hwell, htokens, parse_printed hwell htokens⟩

end Arrow
