import Arrow.Proofs.Grammar.Nodes
import Mathlib

/-!
# Names that are introduced

The words for constants can neither be read as variables nor be called (`readable_iff`,
`callable_iff`). A program introduces none of them as a variable. As a function it may, and then the
function cannot be called; the names of functions are those behind the markers among the tokens
(`Grammar.Derives.marks`).
-/

namespace Arrow

/-- Some tokens are read as a variable of that name. -/
def Readable (name : String) : Prop :=
  ∃ ts rest p, (Grammar.expression ts).outcome = (.ok (.var name p), rest)

/-- Some tokens are read as a call of a function of that name. -/
def Callable (name : String) : Prop :=
  ∃ ts rest args p, (Grammar.expression ts).outcome = (.ok (.call name args p), rest)

/-- The names of the variables that a statement by itself writes, or has as parameters. -/
def Statement.boundNames : Statement → List String
  | declaration _ name _ _ _ => [name]
  | assignment name _ _ => [name]
  | function definition => definition.params.map (·.name)
  | _ => []

/-- The name of the function that a statement by itself declares. -/
def Statement.functionNames : Statement → List String
  | function definition => [definition.name]
  | _ => []

/-- The names behind the markers of functions, up to the end of input. -/
def markedNames : List Token → List String
  | ⟨.keyword (.fn _), _, _⟩ :: ⟨.identifier name, _, _⟩ :: rest => name :: markedNames rest
  | ⟨.endOfInput, _, _⟩ :: _ => []
  | _ :: rest => markedNames rest
  | [] => []

namespace Grammar

/-! ## Names of variables -/

/-- What a derivation of a list says about its items. -/
def Nonterminal.ItemsDerived : (n : Nonterminal) → n.Result → Prop
  | items _ e, rs => ∀ r ∈ rs, ∃ ts rest, Derives (.entry e) ts r rest
  | itemsUntil _ e, rs => ∀ r ∈ rs, ∃ ts rest, Derives (.entry e) ts r rest
  | _, _ => True

variable {n : Nonterminal} {ts rest : List Token}

theorem Derives.itemsDerived {r : n.Result} (h : Derives n ts r rest) : n.ItemsDerived r := by
  induction h with
  | items_nil => exact fun _ => nofun
  | items_cons _ _ ih => exact ih
  | itemsUntil_last _ h _ => exact List.forall_mem_singleton.2 ⟨_, _, h⟩
  | itemsUntil_more h _ _ ih => exact List.forall_mem_cons.2 ⟨⟨_, _, h⟩, ih⟩
  | _ => trivial

theorem Derives.bindable_parameterName {kind : Mutability} {known : Option DeclaredType}
    {param : Parameter} (h : Derives (.parameterName kind known) ts param rest) :
    Bindable param.name := by
  cases h with
  | parameterName hname _ => exact hname

theorem Derives.bindable_parameter {param : Parameter}
    (h : Derives (.entry .parameter) ts param rest) : Bindable param.name := by
  cases h with
  | parameter_const h => exact h.bindable_parameterName
  | parameter_var h => exact h.bindable_parameterName
  | parameter_plain h => exact h.bindable_parameterName

theorem Derives.bindable_header {p : Position} {word : Option String} {head : Header}
    (h : Derives (.header p word) ts head rest) : ∀ param ∈ head.params, Bindable param.name := by
  cases h with
  | header hparams _ _ =>
    intro param hparam
    obtain ⟨_, _, hderived⟩ := hparams.itemsDerived param hparam
    exact hderived.bindable_parameter

/-- Variables and calls are not spelt with the words for constants. -/
def NamesBindable : Expr → Prop
  | .var name _ => Bindable name
  | .call name _ _ => Bindable name
  | _ => True

theorem nodeRules_names :
    NodeRules NamesBindable fun statement => ∀ name ∈ statement.boundNames, Bindable name where
  literal _ _ := trivial
  var _ hname := hname
  not _ _ := trivial
  binary _ _ _ _ := trivial
  call _ _ hname := hname
  array _ _ := trivial
  object _ _ := trivial
  index _ _ _ := trivial
  member _ _ _ := trivial
  declaration h := by
    cases h with
    | declaration_value hname _ _ => exact List.forall_mem_singleton.2 hname
    | declaration_absent hname _ _ => exact List.forall_mem_singleton.2 hname
  assignment _ _ hname := List.forall_mem_singleton.2 hname
  function h _ := List.forall_mem_map.2 h.bindable_header
  returnValue _ _ := fun _ => nofun
  expression _ _ := fun _ => nofun
  conditional _ _ _ _ := fun _ => nofun
  whileLoop _ _ _ := fun _ => nofun
  forLoop _ _ _ _ _ := fun _ => nofun

end Grammar

open Grammar

theorem readable_iff {name : String} : Readable name ↔ Bindable name := by
  constructor
  · rintro ⟨ts, rest, p, h⟩
    exact nodeRules_names.all (derives_expression h)
  · intro hname
    have hread : Derives (.entry .expression) [⟨.identifier name, "", .start⟩]
        (.var name .start) [] :=
      .expression (.unary_operand (startsNot_cons.2 rfl) (.primary_var hname (startsNot_nil _))
        (.selections_end (startsNot_nil _))) (.chain_end (startsNot_nil _))
    exact ⟨_, _, _, hread.takes⟩

theorem callable_iff {name : String} : Callable name ↔ Bindable name := by
  constructor
  · rintro ⟨ts, rest, args, p, h⟩
    exact (nodeRules_names.all (derives_expression h)).1
  · intro hname
    have hread : Derives (.entry .expression) [⟨.identifier name, "", .start⟩,
        ⟨.punctuation '(', "", .start⟩, ⟨.punctuation ')', "", .start⟩] (.call name [] .start) [] :=
      .expression (.unary_operand (startsNot_cons.2 rfl) (.primary_call hname .items_nil)
        (.selections_end (startsNot_nil _))) (.chain_end (startsNot_nil _))
    exact ⟨_, _, _, _, hread.takes⟩

/-! ## Names of functions -/

namespace Grammar

variable {n : Nonterminal} {ts rest : List Token}

/-- A form with no function in it. -/
def Nonterminal.IsPlain : Nonterminal → Prop
  | statement => False
  | block => False
  | statements => False
  | branch => False
  | otherBranches => False
  | _ => True

theorem markedNames_literal (value : Literal) (text : String) (p : Position) :
    markedNames (⟨value.kind, text, p⟩ :: ts) = markedNames ts := by
  cases value with
  | bool b => cases b <;> rfl
  | _ => rfl

theorem Derives.markedNames_eq {r : n.Result} (h : Derives n ts r rest) (hplain : n.IsPlain) :
    markedNames ts = markedNames rest := by
  induction h with
  | items_nil => rfl
  | items_cons _ _ ih => exact ih trivial
  | itemsUntil_last _ _ ih => exact ih trivial
  | itemsUntil_more _ _ ih₁ ih₂ => exact (ih₁ trivial).trans (ih₂ trivial)
  | expression _ _ ih₁ ih₂ => exact (ih₁ trivial).trans (ih₂ trivial)
  | chain_end _ => rfl
  | chain_binary _ _ _ ih₁ ih₂ => exact (ih₁ trivial).trans (ih₂ trivial)
  | unary_not _ ih => exact ih trivial
  | unary_operand _ _ _ ih₁ ih₂ => exact (ih₁ trivial).trans (ih₂ trivial)
  | selections_end _ => rfl
  | selections_index _ _ ih₁ ih₂ => exact (ih₁ trivial).trans (ih₂ trivial)
  | selections_member _ ih => exact ih trivial
  | primary_literal => exact markedNames_literal _ _ _
  | primary_var _ _ => rfl
  | primary_call _ _ ih => exact ih trivial
  | primary_parentheses _ ih => exact ih trivial
  | primary_array _ ih => exact ih trivial
  | primary_object _ ih => exact ih trivial
  | field hkey _ ih => rcases hkey with rfl | rfl <;> exact ih trivial
  | declaredType_const => rfl
  | declaredType_plain _ => rfl
  | optionalType_none _ => rfl
  | optionalType_some _ ih => exact ih trivial
  | declaration_value _ _ _ ih₁ ih₂ => exact (ih₁ trivial).trans (ih₂ trivial)
  | declaration_absent _ _ _ ih => exact ih trivial
  | parameter_const _ ih => exact ih trivial
  | parameter_var _ ih => exact ih trivial
  | parameter_plain _ ih => exact ih trivial
  | parameterName _ _ ih => exact ih trivial
  | header _ _ _ ih₁ ih₂ => exact (ih₁ trivial).trans (ih₂ trivial)
  | _ => exact hplain.elim

theorem markedNames_skipArrow (ts : List Token) : markedNames (skipArrow ts) = markedNames ts := by
  unfold skipArrow
  split
  case isTrue h =>
    match ts, h with
    | ⟨.keyword .arrow, _, _⟩ :: _, _ => rfl
  case isFalse => rfl

/-- The statement by itself declares no function, or one whose name satisfies `P`. -/
def NamesFunctions (P : String → Prop) (statement : Statement) : Prop :=
  ∀ name ∈ statement.functionNames, P name

/-- The names behind the markers of functions satisfy `P`. -/
def Marked (P : String → Prop) (ts : List Token) : Prop :=
  ∀ name ∈ markedNames ts, P name

/-- The names behind the markers in the form are those of the functions in it. -/
def Nonterminal.Marks (P : String → Prop) :
    (n : Nonterminal) → List Token → n.Result → List Token → Prop
  | statement, ts, r, rest =>
    Marked P ts ↔ r.All (fun _ => True) (NamesFunctions P) ∧ Marked P rest
  | block, ts, body, rest =>
    Marked P ts ↔ Statement.AllIn (fun _ => True) (NamesFunctions P) body ∧ Marked P rest
  | statements, ts, body, rest =>
    Marked P ts ↔ Statement.AllIn (fun _ => True) (NamesFunctions P) body ∧ Marked P rest
  | branch, ts, r, rest =>
    Marked P ts ↔ Statement.AllIn (fun _ => True) (NamesFunctions P) r.body ∧ Marked P rest
  | otherBranches, ts, (others, otherwise), rest =>
    Marked P ts ↔ (Statement.AllInBranches (fun _ => True) (NamesFunctions P) others ∧
      Statement.AllInOtherwise (fun _ => True) (NamesFunctions P) otherwise) ∧ Marked P rest
  | _, _, _, _ => True

section

variable {P : String → Prop}

theorem namesFunctions_of_nil {statement : Statement} (h : statement.functionNames = []) :
    NamesFunctions P statement := by
  unfold NamesFunctions
  rw [h]
  exact fun _ => nofun

/-- A statement that declares no function, and an expression in it. -/
theorem namesFunctions_and_all {statement : Statement} {expr : Expr}
    (h : statement.functionNames = []) :
    NamesFunctions P statement ∧ expr.All fun _ => True :=
  ⟨namesFunctions_of_nil h, expr.all_true⟩

theorem namesFunctions_function (f : Function) : NamesFunctions P (.function f) ↔ P f.name :=
  List.forall_mem_singleton

theorem Derives.all_declaration {p : Position} {kind : Mutability} {word : Option String}
    {r : Statement} (h : Derives (.declaration p kind word) ts r rest) :
    r.All (fun _ => True) (NamesFunctions P) := by
  cases h with
  | declaration_value _ _ _ => exact namesFunctions_and_all rfl
  | declaration_absent _ _ _ => exact namesFunctions_and_all rfl

theorem marked_congr {us : List Token} (h : markedNames ts = markedNames us) :
    Marked P ts ↔ Marked P us := by
  unfold Marked
  rw [h]

/-- What has no function in it is marked as what follows it. -/
theorem marked_iff_of_plain {A : Prop} (hall : A) (h : markedNames ts = markedNames rest) :
    Marked P ts ↔ A ∧ Marked P rest :=
  (marked_congr h).trans (and_iff_right hall).symm

theorem marked_trans {mid : List Token} {A B C : Prop} (h₁ : Marked P ts ↔ A ∧ Marked P mid)
    (h₂ : Marked P mid ↔ B ∧ Marked P rest) (hparts : A ∧ B ↔ C) :
    Marked P ts ↔ C ∧ Marked P rest := by
  rw [h₁, h₂, ← and_assoc, hparts]

theorem Derives.marked_header {p p' : Position} {word word' : Option String} {text : String}
    {head : Header} (h : Derives (.header p word) ts head rest) :
    Marked P (⟨.keyword (.fn word'), text, p'⟩ :: ts) ↔ P head.name ∧ Marked P rest := by
  have heq := h.markedNames_eq trivial
  cases h with
  | header _ _ _ => exact List.forall_mem_cons.trans (and_congr_right fun _ => marked_congr heq)

/-- The induction is on the derivation; a form with no function is marked as what follows it. -/
theorem Derives.marks {r : n.Result} (h : Derives n ts r rest) : n.Marks P ts r rest := by
  induction h with
  | statement_var h _ => exact marked_iff_of_plain h.all_declaration (h.markedNames_eq trivial)
  | statement_const h _ => exact marked_iff_of_plain h.all_declaration (h.markedNames_eq trivial)
  | statement_declaration h _ =>
    exact marked_iff_of_plain h.all_declaration (h.markedNames_eq trivial)
  | statement_function h _ _ ih =>
    refine marked_trans h.marked_header ih ?_
    rw [Statement.All, namesFunctions_function, Function.All]
  | statement_return _ _ h _ =>
    exact marked_iff_of_plain (namesFunctions_and_all rfl) (h.markedNames_eq trivial)
  | statement_returnAbsent _ => exact marked_iff_of_plain (namesFunctions_and_all rfl) rfl
  | statement_assignment _ h _ =>
    exact marked_iff_of_plain (namesFunctions_and_all rfl) (h.markedNames_eq trivial)
  | statement_expression h _ =>
    exact marked_iff_of_plain (namesFunctions_and_all rfl) (h.markedNames_eq trivial)
  | @statement_conditional _ _ _ _ _ first _ _ _ _ ih₁ ih₂ =>
    cases first
    refine marked_trans ih₁ ih₂ ?_
    simp [Statement.All, Statement.AllInBranches, Expr.all_true, NamesFunctions,
      Statement.functionNames, and_assoc]
  | statement_while _ ih =>
    refine marked_trans (marked_iff_of_plain trivial rfl) ih ?_
    simp [Statement.All, Expr.all_true, NamesFunctions, Statement.functionNames]
  | statement_for _ h₂ _ _ ih₁ _ ih₃ ih₄ =>
    have hinit := (marked_congr (markedNames_skipArrow _)).symm.trans ih₁
    have hcondition : Marked P _ ↔ Marked P _ := marked_congr (h₂.markedNames_eq trivial)
    refine marked_trans hinit (marked_trans (hcondition.trans ih₃) ih₄ .rfl) ?_
    simp [Statement.All, Expr.all_true, NamesFunctions, Statement.functionNames]
  | block _ ih => exact ih
  | statements_nil => exact marked_iff_of_plain trivial rfl
  | statements_cons _ _ ih₁ ih₂ => exact marked_trans ih₁ ih₂ .rfl
  | branch h _ _ ih =>
    exact (marked_congr ((markedNames_skipArrow _).symm.trans (h.markedNames_eq trivial))).trans ih
  | @otherBranches_elif _ _ _ _ _ first _ _ _ _ ih₁ ih₂ =>
    cases first
    refine marked_trans ih₁ ih₂ ?_
    simp [Statement.AllInBranches, Expr.all_true, and_assoc]
  | otherBranches_else _ ih =>
    refine marked_trans (marked_iff_of_plain trivial rfl) ih ?_
    simp [Statement.AllInBranches, Statement.AllInOtherwise]
  | otherBranches_none _ => exact marked_iff_of_plain ⟨trivial, trivial⟩ rfl
  | _ => trivial

theorem DerivesProgram.marks {body : List Statement} (h : DerivesProgram ts body) :
    Marked P ts ↔ Statement.AllIn (fun _ => True) (NamesFunctions P) body := by
  induction h with
  | nil => exact iff_of_true (fun _ => nofun) trivial
  | endOfInput => exact iff_of_true (fun _ => nofun) trivial
  | cons hfirst _ ih => exact hfirst.marks.trans (and_congr_right fun _ => ih)

end

end Grammar

/--
The names that a program reads, calls, declares or assigns, and those of its parameters, are no
words for constants. Its functions have no such names either if and only if none of these words
stands behind the marker of a function. What cannot be read as a variable, and what cannot be
called, are these words and no others.
-/
theorem parse_names {ts : List Token} {program : Program} (h : parse ts = .ok program) :
    program.All NamesBindable (fun statement => ∀ name ∈ statement.boundNames, Bindable name) ∧
    (program.All (fun _ => True) (fun statement =>
        ∀ name ∈ statement.functionNames, Bindable name) ↔
      ∀ name ∈ markedNames (ts.filter (!·.isComment)), Bindable name) ∧
    ∀ name, (Readable name ↔ Bindable name) ∧ (Callable name ↔ Bindable name) :=
  ⟨nodeRules_names.all_of_parse h, (derivesProgram_of_parse h).marks.symm,
    fun _ => ⟨readable_iff, callable_iff⟩⟩

/-- In `<fn> f(x) { y <== x }` all names are bindable. -/
theorem parse_names_of_function :
    let ts : List Token := [TokenKind.keyword (.fn none), .identifier "f", .punctuation '(',
      .identifier "x", .punctuation ')', .punctuation '\x7b', .identifier "y", .operator .assign,
      .identifier "x", .punctuation '\x7d'].map (Token.mk · "" .start)
    let body : List Statement := [.assignment "y" (.var "x" .start) .start]
    let program : Program := ⟨[.function ⟨"f", [⟨"x", none, .var, .start⟩], none, body, .start⟩]⟩
    parse ts = .ok program ∧
      program.All NamesBindable (fun statement => ∀ name ∈ statement.boundNames, Bindable name) ∧
      (program.All (fun _ => True) (fun statement =>
          ∀ name ∈ statement.functionNames, Bindable name) ↔
        ∀ name ∈ markedNames (ts.filter (!·.isComment)), Bindable name) ∧
      ∀ name, (Readable name ↔ Bindable name) ∧ (Callable name ↔ Bindable name) := by
  intro ts body program
  have hparse : parse ts = .ok program := by cbv
  exact ⟨hparse, parse_names hparse⟩

/-- `<fn> true() { }` is a program, whose function cannot be called. -/
theorem parse_function_true :
    let ts : List Token := [TokenKind.keyword (.fn none), .identifier "true", .punctuation '(',
      .punctuation ')', .punctuation '\x7b', .punctuation '\x7d'].map (Token.mk · "" .start)
    parse ts = .ok ⟨[.function ⟨"true", [], none, [], .start⟩]⟩ ∧ ¬ Bindable "true" ∧
      ¬ Callable "true" := by
  intro ts
  have hparse : parse ts = .ok ⟨[.function ⟨"true", [], none, [], .start⟩]⟩ := by cbv
  have hword : ¬ Bindable "true" := fun h => h.1 rfl
  exact ⟨hparse, hword, fun h => hword (callable_iff.1 h)⟩

end Arrow
