import Arrow.Proofs.Evaluation.Causes
import Arrow.Proofs.Evaluation.Termination
import Arrow.Proofs.Grammar.Nodes
import Mathlib

/-!
# No operator is unknown

The grammar joins two operands by the operators for joining only, and each of these has a result, or
a fault of its operands, on all values. So no program that is parsed fails for an operator that is
unknown (`parse_knows_operators`).
-/

namespace Arrow

/-! ## Values -/

/-- The computation does not fail for an operator that is unknown. -/
def KnowsOperators {α : Type} (result : Except RuntimeError α) : Prop :=
  ∀ op p, result ≠ .error (.unknownOperator op p)

theorem KnowsOperators.ok {α : Type} (value : α) : KnowsOperators (.ok value) :=
  fun _ _ => nofun

namespace Value

variable {op : Operator} {p : Position}

/-- What is not exact is done in floating point, so an operator known there is known. -/
theorem knowsOperators_arithmetic (h : ∀ x y, (op.onFloat? x y).isSome) (a b : Value) :
    KnowsOperators (arithmetic op a b p) := by
  unfold arithmetic
  split
  · exact .ok _
  · split
    case h_1 x y hx hy =>
      split
      case h_1 => exact .ok _
      case h_2 => exact .ok _
      case h_3 hfloat =>
        have hsome := h x y
        rw [hfloat] at hsome
        exact nomatch hsome
    case h_2 => exact fun _ _ => nofun

theorem knowsOperators_binary (h : op.isBinary) (a b : Value) (p : Position) :
    KnowsOperators (binary op a b p) := by
  cases op with
  | add => exact knowsOperators_arithmetic (fun _ _ => rfl) a b
  | sub => exact knowsOperators_arithmetic (fun _ _ => rfl) a b
  | mul => exact knowsOperators_arithmetic (fun _ _ => rfl) a b
  | div => exact knowsOperators_arithmetic (fun _ _ => rfl) a b
  | assign => exact nomatch h
  | typeOpen => exact nomatch h
  | typeClose => exact nomatch h
  | not => exact nomatch h
  | _ => exact .ok _

end Value

/-! ## Runs -/

/-- An expression that joins two operands does so by an operator for that. -/
def Expr.OperatorKnown : Expr → Prop
  | binary _ op _ _ => op.isBinary
  | _ => True

/-- Every operator in the program that joins two operands is for that, at any depth. -/
def Program.OperatorsKnown (program : Program) : Prop :=
  program.All Expr.OperatorKnown fun _ => True

/-- Every operator in the functions declared so far is known. -/
def State.OperatorsKnown (state : State) : Prop :=
  state.functions.All Expr.OperatorKnown fun _ => True

/-- An operator was unknown. -/
def Halt.OfUnknownOperator (halt : Halt) : Prop :=
  ∃ op p, halt = .error (.runtime (.unknownOperator op p))

/-- Where all operators in functions are known, the action does not fail for one that is not. -/
abbrev Action.AvoidsUnknown {α : Type} (action : Action α) : Prop :=
  action.Avoids Halt.OfUnknownOperator State.OperatorsKnown

theorem excludes_ofUnknownOperator : Excludes Halt.OfUnknownOperator Expr.OperatorKnown where
  exhausted := fun ⟨_, _, h⟩ => nomatch h
  reserved := by
    rintro _ ⟨op, p, heq⟩
    cases heq
    trivial
  binary := by
    rintro left op right p hop a b _ hcause ⟨op', p', heq⟩
    cases heq
    exact Value.knowsOperators_binary hop a b p _ _ hcause

theorem Program.avoidsUnknown_run {program : Program} (h : program.OperatorsKnown) (config : Config)
    (rounds : Nat) : (program.run (.outermost config rounds)).AvoidsUnknown := by
  have hcall := excludes_ofUnknownOperator.invoke config rounds config.maxCallDepth
  have hrules : Action.RunRules (fun _ action => action.AvoidsUnknown) (.outermost config rounds)
      Expr.OperatorKnown fun _ => True := excludes_ofUnknownOperator.runRules hcall
  have hbody := hrules.runBody (fun _ => Action.avoids_fail fun ⟨_, _, h⟩ => nomatch h) _ h
  have hentry : (runEntryPoint (.outermost config rounds)).AvoidsUnknown :=
    avoids_runEntryPoint hcall fun _ ⟨_, _, h⟩ => nomatch h
  exact hbody.bind fun _ => hentry.bind fun _ => Action.avoids_environment

/-! ## Programs that are parsed -/

theorem Grammar.nodeRules_operatorKnown : NodeRules Expr.OperatorKnown fun _ => True where
  literal _ _ := trivial
  var _ _ := trivial
  not _ _ := trivial
  binary _ _ _ h := h
  call _ _ _ := trivial
  array _ _ := trivial
  object _ _ := trivial
  index _ _ _ := trivial
  member _ _ _ := trivial
  declaration _ := trivial
  assignment _ _ _ := trivial
  function _ _ := trivial
  returnValue _ _ := trivial
  expression _ _ := trivial
  conditional _ _ _ _ := trivial
  whileLoop _ _ _ := trivial
  forLoop _ _ _ _ _ := trivial

/--
Every operator that joins operands in a program that is parsed is for that, no such operator is
unknown on any values, and so no run of the program fails for an operator that is unknown.
-/
theorem parse_knows_operators {tokens : List Token} {program : Program}
    (h : parse tokens = .ok program) :
    program.OperatorsKnown ∧
      (∀ op : Operator, op.isBinary → ∀ a b p, KnowsOperators (Value.binary op a b p)) ∧
      ∀ (σ : Type) [Console σ] (config : Config) (rounds : Nat) (console : σ) op p,
        (program.ending (.outermost config rounds) console).1.1 ≠
          .error (.error (.runtime (.unknownOperator op p))) := by
  have hknown : program.OperatorsKnown := Grammar.nodeRules_operatorKnown.all_of_parse h
  refine ⟨hknown, fun op hop a b p => Value.knowsOperators_binary hop a b p, ?_⟩
  intro σ _ config rounds console op p
  have hinitial : State.initial.OperatorsKnown := FunctionTable.all_empty
  have hrun := (Program.avoidsUnknown_run hknown config rounds .initial hinitial).conduct console
  exact hrun.1 _ ⟨op, p, rfl⟩

/-- The assignment `x <== [y <*> z][a <+> b]`, with all its tokens in one place. -/
theorem parse_knows_operators_selection :
    let tokens : List Token := [TokenKind.identifier "x", .operator .assign, .punctuation '[',
      .identifier "y", .operator .mul, .identifier "z", .punctuation ']', .punctuation '[',
      .identifier "a", .operator .add, .identifier "b", .punctuation ']'].map (Token.mk · "" .start)
    let product : Expr := .binary (.var "y" .start) .mul (.var "z" .start) .start
    let sum : Expr := .binary (.var "a" .start) .add (.var "b" .start) .start
    let selection : Expr := .index (.array [product] .start) sum .start
    let program : Program := ⟨[.assignment "x" selection .start]⟩
    parse tokens = .ok program ∧ program.OperatorsKnown ∧
      (∀ op : Operator, op.isBinary → ∀ a b p, KnowsOperators (Value.binary op a b p)) ∧
      ∀ (σ : Type) [Console σ] (config : Config) (rounds : Nat) (console : σ) op p,
        (program.ending (.outermost config rounds) console).1.1 ≠
          .error (.error (.runtime (.unknownOperator op p))) := by
  intro tokens product sum selection program
  have hparse : parse tokens = .ok program := by cbv
  exact ⟨hparse, parse_knows_operators hparse⟩

/-- A tree that no text is parsed as, with an assignment for an operator, fails in every run. -/
example {σ : Type} [Console σ] (config : Config) (rounds : Nat) (console : σ) (p : Position) :
    let join : Expr := .binary (.literal .null p) .assign (.literal .null p) p
    (Program.ending ⟨[.expression join p]⟩ (.outermost config rounds) console).1.1 =
      .error (.error (.runtime (.unknownOperator .assign p))) := rfl

end Arrow
