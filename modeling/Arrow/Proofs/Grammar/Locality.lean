import Arrow.Proofs.Grammar.Soundness
import Mathlib

/-!
# What follows a form

A derivation depends on what follows only through the first token of it (`Derives.exchanges`). Where
nothing follows, anything may follow that could not continue the form, unless the form ends with an
arrow. So statements need nothing between them: what is parsed by itself is parsed so in front of
any other statements, and behind them (`parse_append`).
-/

namespace Arrow

theorem Reply.length_lt_of_outcome {α : Type} {bound : Nat} {r : Reply α bound} {value : α}
    {rest : List Token} (h : r.outcome = (.ok value, rest)) : rest.length < bound := by
  cases r with
  | ok value' rest' hlt =>
    obtain ⟨-, rfl⟩ := Prod.mk.inj h
    exact hlt
  | error cause rest' => exact nomatch (Prod.mk.inj h).1

namespace Grammar

/-- Behind the tokens `used`, the tokens `later` may take the place of `rest`. -/
def Exchangeable (used rest later : List Token) : Prop :=
  rest.head? = later.head? ∨
    rest = [] ∧ StartsNot TokenKind.continues later ∧
      ∀ token ∈ used.getLast?, token.kind ≠ .keyword .arrow

namespace Exchangeable

variable {first used rest later : List Token} {token : Token}

theorem behind (h : Exchangeable (first ++ used) rest later) : Exchangeable used rest later := by
  refine h.imp_right fun ⟨hrest, hlater, hlast⟩ => ⟨hrest, hlater, fun last hmem => ?_⟩
  refine hlast last ?_
  rw [List.getLast?_append, Option.mem_def.1 hmem]
  rfl

theorem tail (h : Exchangeable (token :: used) rest later) : Exchangeable used rest later :=
  behind (show Exchangeable ([token] ++ used) rest later from h)

theorem of_ne_nil (h : used ≠ []) : Exchangeable first (used ++ rest) (used ++ later) := by
  obtain ⟨token, used, rfl⟩ := List.exists_cons_of_ne_nil h
  exact .inl rfl

theorem front (h : Exchangeable (first ++ used) rest later) :
    Exchangeable first (used ++ rest) (used ++ later) := by
  cases used with
  | nil => rwa [List.append_nil] at h
  | cons token used => exact .inl rfl

theorem startsNot {test : TokenKind → Bool} (h : Exchangeable used rest later)
    (hstart : StartsNot test rest)
    (htest : ∀ {kind : TokenKind}, kind.continues = false → test kind = false) :
    StartsNot test later := by
  rcases h with hhead | ⟨-, hlater, -⟩
  · unfold StartsNot
    rw [← hhead]
    exact hstart
  · exact hlater.mono htest

end Exchangeable

/-- What follows the derived form may be exchanged. -/
def Exchanges (n : Nonterminal) (ts : List Token) (r : n.Result) (rest : List Token) : Prop :=
  ∃ used, ts = used ++ rest ∧
    ∀ later, Exchangeable used rest later → Derives n (used ++ later) r later

namespace Exchanges

variable {n n₁ n₂ : Nonterminal} {r : n.Result} {r₁ : n₁.Result} {r₂ : n₂.Result}
  {ts mid rest : List Token}

theorem of_tokens (front : List Token) (rule : ∀ rest, Derives n (front ++ rest) r rest) :
    Exchanges n (front ++ rest) r rest :=
  ⟨front, rfl, fun later _ => rule later⟩

theorem of_part (front : List Token)
    (rule : ∀ {ts rest}, Derives n₁ ts r₁ rest → Derives n (front ++ ts) r rest)
    (h : Exchanges n₁ ts r₁ rest) : Exchanges n (front ++ ts) r rest := by
  obtain ⟨used, rfl, h⟩ := h
  refine ⟨front ++ used, (List.append_assoc ..).symm, fun later hlater => ?_⟩
  rw [List.append_assoc]
  exact rule (h later hlater.behind)

theorem of_enclosed (front : List Token) (token : Token)
    (rule : ∀ {ts rest}, Derives n₁ ts r₁ (token :: rest) → Derives n (front ++ ts) r rest)
    (h : Exchanges n₁ ts r₁ (token :: rest)) : Exchanges n (front ++ ts) r rest := by
  obtain ⟨used, rfl, h⟩ := h
  refine ⟨front ++ (used ++ [token]), by simp, fun later hlater => ?_⟩
  rw [List.append_assoc, List.append_assoc]
  exact rule (h _ (.inl rfl))

theorem of_parts (front between : List Token)
    (rule : ∀ {ts mid rest}, Derives n₁ ts r₁ (between ++ mid) → Derives n₂ mid r₂ rest →
      Derives n (front ++ ts) r rest)
    (h₁ : Exchanges n₁ ts r₁ (between ++ mid)) (h₂ : Exchanges n₂ mid r₂ rest) :
    Exchanges n (front ++ ts) r rest := by
  obtain ⟨used₁, rfl, h₁⟩ := h₁
  obtain ⟨used₂, rfl, h₂⟩ := h₂
  refine ⟨front ++ (used₁ ++ (between ++ used₂)), by simp, fun later hlater => ?_⟩
  simp only [List.append_assoc]
  refine rule (h₁ _ ?_) (h₂ later hlater.behind.behind.behind)
  rw [← List.append_assoc, ← List.append_assoc]
  exact hlater.behind.front

end Exchanges

variable {n : Nonterminal} {used ts rest later : List Token}

theorem ne_nil_of_outcome {α : Type} {value : α} {reply : Reply α (used ++ rest).length}
    (h : reply.outcome = (.ok value, rest)) : used ≠ [] := by
  have hlt := Reply.length_lt_of_outcome h
  rintro rfl
  exact Nat.lt_irrefl _ hlt

theorem startsNot_append {test : TokenKind → Bool} (h : StartsNot test (used ++ rest))
    (hused : used ≠ []) : StartsNot test (used ++ later) := by
  obtain ⟨token, used, rfl⟩ := List.exists_cons_of_ne_nil hused
  exact startsNot_cons.2 (startsNot_cons.1 h)

/-- An arrow that is skipped is skipped whatever follows. -/
theorem exists_of_skipArrow_eq (h : skipArrow ts = used ++ rest) (hused : used ≠ []) :
    ∃ front, ts = front ++ rest ∧ ∀ later, skipArrow (front ++ later) = used ++ later := by
  obtain ⟨first, used, rfl⟩ := List.exists_cons_of_ne_nil hused
  unfold skipArrow at h
  split at h
  case isTrue hstart =>
    cases ts with
    | nil => exact nomatch h
    | cons arrow ts =>
      obtain rfl : ts = first :: used ++ rest := h
      exact ⟨arrow :: first :: used, rfl, fun later =>
        skipArrow_cons (of_decide_eq_true hstart) _⟩
  case isFalse hstart =>
    subst h
    refine ⟨first :: used, rfl, fun later => ?_⟩
    unfold skipArrow
    exact if_neg hstart

/-- The first two tokens stay in place. -/
theorem exists_append_eq_cons_cons {first second : Token} (h : first :: second :: ts = used ++ rest)
    (hused : used ≠ []) (hlater : Exchangeable used rest later) :
    ∃ behind, used ++ later = first :: second :: behind := by
  match used, hused with
  | [token], _ =>
    obtain ⟨rfl, rfl⟩ := List.cons.inj h
    rcases hlater with hhead | ⟨hrest, -⟩
    · cases later with
      | nil => exact nomatch hhead
      | cons token later =>
        obtain rfl := Option.some.inj hhead
        exact ⟨later, rfl⟩
    · exact nomatch hrest
  | token :: token' :: used, _ =>
    rw [List.cons_append, List.cons_append, List.cons.injEq, List.cons.injEq] at h
    obtain ⟨rfl, rfl, -⟩ := h
    exact ⟨used ++ later, rfl⟩

theorem Derives.exchanges {r : n.Result} (h : Derives n ts r rest) : Exchanges n ts r rest := by
  induction h with
  | items_nil => exact .of_tokens [_] fun _ => .items_nil
  | items_cons hstart h ih =>
    obtain ⟨used, rfl, ih⟩ := ih
    have hused := ne_nil_of_outcome (h.takes _ (Nat.le_refl _))
    exact ⟨used, rfl, fun later hlater =>
      .items_cons (startsNot_append hstart hused) (ih later hlater)⟩
  | itemsUntil_last hcomma h ih => exact .of_enclosed [] _ (.itemsUntil_last hcomma) ih
  | itemsUntil_more h₁ h₂ ih₁ ih₂ => exact .of_parts [] [_] .itemsUntil_more ih₁ ih₂
  | expression h₁ h₂ ih₁ ih₂ => exact .of_parts [] [] .expression ih₁ ih₂
  | chain_end h =>
    exact ⟨[], rfl, fun later hlater =>
      .chain_end (hlater.startsNot h TokenKind.joins_of_continues)⟩
  | chain_binary hop h₁ h₂ ih₁ ih₂ => exact .of_parts [_] [] (.chain_binary hop) ih₁ ih₂
  | unary_not h ih => exact .of_part [_] .unary_not ih
  | unary_operand hstart h₁ h₂ ih₁ ih₂ =>
    obtain ⟨used₁, rfl, ih₁⟩ := ih₁
    obtain ⟨used₂, rfl, ih₂⟩ := ih₂
    have hused := ne_nil_of_outcome h₁.takes
    refine ⟨used₁ ++ used₂, (List.append_assoc ..).symm, fun later hlater => ?_⟩
    rw [List.append_assoc]
    exact .unary_operand (startsNot_append hstart hused) (ih₁ _ hlater.front)
      (ih₂ later hlater.behind)
  | selections_end h =>
    exact ⟨[], rfl, fun later hlater => .selections_end (hlater.startsNot h fun h =>
      TokenKind.picks_of_selects (TokenKind.selects_of_continues h))⟩
  | selections_index h₁ h₂ ih₁ ih₂ => exact .of_parts [_] [_] .selections_index ih₁ ih₂
  | selections_member h ih => exact .of_part [_, _] .selections_member ih
  | primary_literal => exact .of_tokens [_] fun _ => .primary_literal
  | primary_var hname h =>
    exact ⟨[_], rfl, fun later hlater => .primary_var hname (hlater.startsNot h fun h =>
      TokenKind.opens_of_selects (TokenKind.selects_of_continues h))⟩
  | primary_call hname h ih => exact .of_part [_, _] (.primary_call hname) ih
  | primary_parentheses h ih => exact .of_enclosed [_] _ .primary_parentheses ih
  | primary_array h ih => exact .of_part [_] .primary_array ih
  | primary_object h ih => exact .of_part [_] .primary_object ih
  | field hkey h ih => exact .of_part [_, _] (.field hkey) ih
  | declaredType_const => exact .of_tokens [_, _, _, _] fun _ => .declaredType_const
  | declaredType_plain hname => exact .of_tokens [_, _, _] fun _ => .declaredType_plain hname
  | optionalType_none h =>
    exact ⟨[], rfl, fun later hlater =>
      .optionalType_none (hlater.startsNot h TokenKind.annotates_of_continues)⟩
  | optionalType_some h ih => exact .of_part [] .optionalType_some ih
  | declaration_value hname h₁ h₂ ih₁ ih₂ =>
    exact .of_parts [_] [_] (.declaration_value hname) ih₁ ih₂
  | declaration_absent hname h hsign ih =>
    obtain ⟨used, rfl, ih⟩ := ih
    refine ⟨_ :: used, rfl, fun later hlater => ?_⟩
    refine .declaration_absent hname (ih later hlater.tail)
      (hlater.startsNot hsign fun hkind => ?_)
    rw [decide_eq_false_iff_not]
    rintro rfl
    exact nomatch hkind
  | parameter_const h ih => exact .of_part [_] .parameter_const ih
  | parameter_var h ih => exact .of_part [_] .parameter_var ih
  | parameter_plain h ih => exact .of_part [] .parameter_plain ih
  | parameterName hname h ih => exact .of_part [_] (.parameterName hname) ih
  | header h₁ hrepeated h₂ ih₁ ih₂ =>
    exact .of_parts [_, _] [] (fun h₁ h₂ => .header h₁ hrepeated h₂) ih₁ ih₂
  | statement_var h ih => exact .of_part [_] .statement_var ih
  | statement_const h ih => exact .of_part [_] .statement_const ih
  | statement_function h₁ h₂ ih₁ ih₂ => exact .of_parts [_] [] .statement_function ih₁ ih₂
  | statement_return hne hstart h ih =>
    obtain ⟨used, rfl, ih⟩ := ih
    have hused := ne_nil_of_outcome h.takes
    exact ⟨_ :: used, rfl, fun later hlater =>
      .statement_return (List.append_ne_nil_of_left_ne_nil hused later)
        (startsNot_append hstart hused) (ih later hlater.tail)⟩
  | statement_returnAbsent h =>
    refine ⟨[_], rfl, fun later hlater => .statement_returnAbsent ?_⟩
    rcases hlater with hhead | ⟨-, -, harrow⟩
    · exact fun token htoken => h token (hhead ▸ htoken)
    · exact absurd rfl (harrow _ rfl)
  | statement_conditional h₁ h₂ ih₁ ih₂ => exact .of_parts [_] [] .statement_conditional ih₁ ih₂
  | statement_while h ih => exact .of_part [_] .statement_while ih
  | @statement_for text text₁ text₂ p p₁ p₂ ts _ _ _ rest init condition update body h₁ h₂ h₃ h₄
      ih₁ ih₂ ih₃ ih₄ =>
    obtain ⟨used₁, hskip, ih₁⟩ := ih₁
    obtain ⟨used₂, rfl, ih₂⟩ := ih₂
    obtain ⟨used₃, rfl, ih₃⟩ := ih₃
    obtain ⟨used₄, rfl, ih₄⟩ := ih₄
    rw [hskip] at h₁
    obtain ⟨front, rfl, hfront⟩ := exists_of_skipArrow_eq hskip (ne_nil_of_outcome h₁.takes)
    refine ⟨⟨.keyword .forWord, text, p⟩ :: (front ++ ⟨.punctuation ';', text₁, p₁⟩ ::
      (used₂ ++ ⟨.punctuation ';', text₂, p₂⟩ :: (used₃ ++ used₄))), by simp, ?_⟩
    intro later hlater
    simp only [List.cons_append, List.append_assoc]
    have hused₄ := ne_nil_of_outcome h₄.takes
    have h₁' := ih₁ (⟨.punctuation ';', text₁, p₁⟩ ::
      (used₂ ++ ⟨.punctuation ';', text₂, p₂⟩ :: (used₃ ++ (used₄ ++ later)))) (.inl rfl)
    rw [← hfront] at h₁'
    exact .statement_for h₁'
      (ih₂ (⟨.punctuation ';', text₂, p₂⟩ :: (used₃ ++ (used₄ ++ later))) (.inl rfl))
      (ih₃ (used₄ ++ later) (.of_ne_nil hused₄))
      (ih₄ later hlater.tail.behind.tail.behind.tail.behind)
  | statement_declaration h ih =>
    obtain ⟨used, hsplit, ih⟩ := ih
    rw [hsplit] at h
    refine ⟨used, hsplit, fun later hlater => ?_⟩
    obtain ⟨behind, heq⟩ := exists_append_eq_cons_cons hsplit (ne_nil_of_outcome h.takes) hlater
    have h' := ih later hlater
    rw [heq] at h' ⊢
    exact .statement_declaration h'
  | statement_assignment hname h ih => exact .of_part [_, _] (.statement_assignment hname) ih
  | statement_expression h ih =>
    obtain ⟨used, hsplit, ih⟩ := ih
    rw [hsplit] at h
    refine ⟨used, hsplit, fun later hlater => ?_⟩
    obtain ⟨behind, heq⟩ := exists_append_eq_cons_cons hsplit (ne_nil_of_outcome h.takes) hlater
    have h' := ih later hlater
    rw [heq] at h' ⊢
    exact .statement_expression h'
  | block h ih => exact .of_part [_] .block ih
  | statements_nil => exact .of_tokens [_] fun _ => .statements_nil
  | statements_cons h₁ h₂ ih₁ ih₂ => exact .of_parts [] [] .statements_cons ih₁ ih₂
  | branch h₁ h₂ ih₁ ih₂ =>
    obtain ⟨used₁, hskip, ih₁⟩ := ih₁
    obtain ⟨used₂, rfl, ih₂⟩ := ih₂
    rw [hskip] at h₁
    obtain ⟨front, rfl, hfront⟩ := exists_of_skipArrow_eq hskip (ne_nil_of_outcome h₁.takes)
    refine ⟨front ++ used₂, (List.append_assoc ..).symm, fun later hlater => ?_⟩
    rw [List.append_assoc]
    refine .branch ?_ (ih₂ later hlater.behind)
    rw [hfront]
    exact ih₁ _ (.of_ne_nil (ne_nil_of_outcome h₂.takes))
  | otherBranches_elif h₁ h₂ ih₁ ih₂ => exact .of_parts [_] [] .otherBranches_elif ih₁ ih₂
  | otherBranches_else h ih => exact .of_part [_] .otherBranches_else ih
  | otherBranches_none h =>
    exact ⟨[], rfl, fun later hlater =>
      .otherBranches_none (hlater.startsNot h TokenKind.branches_of_continues)⟩

/-! ## Programs side by side -/

namespace DerivesProgram

variable {body others : List Statement}

theorem startsNot_continues (h : DerivesProgram ts body) : StartsNot TokenKind.continues ts := by
  cases h with
  | nil => exact fun token htoken => nomatch htoken
  | endOfInput => exact startsNot_cons.2 rfl
  | cons hfirst hothers =>
    obtain ⟨token, behind, rfl, hbegins⟩ := hfirst.beginsStatement
    exact startsNot_cons.2 (TokenKind.continues_of_beginsStatement hbegins)

theorem append (h : DerivesProgram ts body) (hlater : DerivesProgram later others)
    (hend : ∀ token ∈ ts, token.kind ≠ .endOfInput)
    (harrow : ∀ token ∈ ts.getLast?, token.kind ≠ .keyword .arrow) :
    DerivesProgram (ts ++ later) (body ++ others) := by
  induction h with
  | nil => exact hlater
  | endOfInput => exact absurd rfl (hend _ List.mem_cons_self)
  | @cons _ mid _ _ hfirst _ ih =>
    obtain ⟨used, rfl, hexchange⟩ := hfirst.exchanges
    rw [List.append_assoc]
    cases mid with
    | nil =>
      -- The last of the first statements: what follows it is the whole of `later`.
      rw [List.append_nil] at harrow
      exact .cons (hexchange later (.inr ⟨rfl, hlater.startsNot_continues, harrow⟩))
        (ih (fun _ hmem => nomatch hmem) fun _ hmem => nomatch hmem)
    | cons next mid =>
      refine .cons (hexchange _ (.inl rfl)) (ih (fun token hmem => ?_) fun token hmem => ?_)
      · exact hend token (List.mem_append_right used hmem)
      · refine harrow token ?_
        rw [List.getLast?_append, Option.mem_def.1 hmem]
        rfl

end DerivesProgram

end Grammar

open Grammar

theorem parse_eq_ok_iff {ts : List Token} (hcomment : ∀ token ∈ ts, token.kind ≠ .comment)
    {program : Program} : parse ts = .ok program ↔ DerivesProgram ts program.body := by
  have hfilter : ts.filter (!·.isComment) = ts := by
    refine List.filter_eq_self.2 fun token hmem => ?_
    unfold Token.isComment
    rw [decide_eq_false (hcomment token hmem)]
    rfl
  unfold parse
  rw [hfilter, ← statementsToEnd_iff]
  cases statementsToEnd ts with
  | error cause => exact ⟨nofun, nofun⟩
  | ok body => exact ⟨fun h => congrArg _ (congrArg Program.body (Except.ok.inj h)),
      fun h => congrArg _ (congrArg Program.mk (Except.ok.inj h))⟩

/--
Statements need no separators: of two lists of tokens that are parsed by themselves, neither changes
how the other is parsed next to it, unless the first ends with the arrow of a bare return.
-/
theorem parse_append {first second : List Token} {a b : List Statement}
    (hend : ∀ token ∈ first ++ second, token.kind ≠ .endOfInput)
    (hcomment : ∀ token ∈ first ++ second, token.kind ≠ .comment)
    (hfirst : parse first = .ok ⟨a⟩) (hsecond : parse second = .ok ⟨b⟩)
    (harrow : ∀ token ∈ first.getLast?, token.kind ≠ .keyword .arrow) :
    parse (first ++ second) = .ok ⟨a ++ b⟩ := by
  rw [List.forall_mem_append] at hend
  have hcomments := List.forall_mem_append.1 hcomment
  rw [parse_eq_ok_iff hcomment]
  exact ((parse_eq_ok_iff hcomments.1).1 hfirst).append ((parse_eq_ok_iff hcomments.2).1 hsecond)
    hend.1 harrow

/-- `if x { } -> y` in front of `f(x)`. -/
theorem parse_append_call :
    let first : List Token := [TokenKind.keyword .ifWord, .identifier "x", .punctuation '{',
      .punctuation '}', .keyword .arrow, .identifier "y"].map (Token.mk · "" .start)
    let second : List Token := [TokenKind.identifier "f", .punctuation '(', .identifier "x",
      .punctuation ')'].map (Token.mk · "" .start)
    let x : Expr := .var "x" .start
    let body : List Statement := [.conditional [⟨x, []⟩] none .start,
      .returnValue (.var "y" .start) .start]
    let call : List Statement := [.expression (.call "f" [x] .start) .start]
    (∀ token ∈ first ++ second, token.kind ≠ .endOfInput) ∧
      (∀ token ∈ first ++ second, token.kind ≠ .comment) ∧
      parse first = .ok ⟨body⟩ ∧ parse second = .ok ⟨call⟩ ∧
      (∀ token ∈ first.getLast?, token.kind ≠ .keyword .arrow) ∧
      parse (first ++ second) = .ok ⟨body ++ call⟩ := by
  intro first second x body call
  have hend : ∀ token ∈ first ++ second, token.kind ≠ .endOfInput := by decide
  have hcomment : ∀ token ∈ first ++ second, token.kind ≠ .comment := by decide
  have hfirst : parse first = .ok ⟨body⟩ := by cbv
  have hsecond : parse second = .ok ⟨call⟩ := by cbv
  have harrow : ∀ token ∈ first.getLast?, token.kind ≠ .keyword .arrow := by decide
  exact ⟨hend, hcomment, hfirst, hsecond, harrow,
    parse_append hend hcomment hfirst hsecond harrow⟩

end Arrow
