import Arrow.Error
import Arrow.Program
import Mathlib.Data.List.Forall2
import Mathlib.Data.Option.Defs

/-!
# Programs that differ in positions

One program is a moved copy of another under a relation `R` of positions if the two differ in
nothing but positions and each position of the one is related to the position at the same place of
the other. Errors are moved copies likewise. Results are matched if both are values, or both errors,
that are related.
-/

namespace Arrow

variable {R S : Position → Position → Prop}

/-! ## Results -/

/-- Both are values and related by `V`, or both are errors and related by `E`. -/
inductive Matched {ε δ α β : Type} (E : ε → δ → Prop) (V : α → β → Prop) :
    Except ε α → Except δ β → Prop
  | ok {value : α} {other : β} (h : V value other) : Matched E V (.ok value) (.ok other)
  | error {cause : ε} {other : δ} (h : E cause other) : Matched E V (.error cause) (.error other)

namespace Matched

variable {ε δ α β α' β' : Type} {E : ε → δ → Prop} {V : α → β → Prop} {W : α' → β' → Prop}
  {x : Except ε α} {y : Except δ β}

theorem bind {f : α → Except ε α'} {g : β → Except δ β'} (h : Matched E V x y)
    (hnext : ∀ {value other}, V value other → Matched E W (f value) (g other)) :
    Matched E W (x >>= f) (y >>= g) := by
  cases h with
  | ok h => exact hnext h
  | error h => exact .error h

theorem map {f : α → α'} {g : β → β'} (h : Matched E V x y)
    (hmap : ∀ {value other}, V value other → W (f value) (g other)) :
    Matched E W (x.map f) (y.map g) := by
  cases h with
  | ok h => exact .ok (hmap h)
  | error h => exact .error h

theorem eq {y : Except ε α} {E : ε → ε → Prop} (h : Matched E Eq x y)
    (hE : ∀ {cause other}, E cause other → cause = other) : x = y := by
  cases h with
  | ok h => exact congrArg _ h
  | error h => exact congrArg _ (hE h)

end Matched

/-! ## Errors -/

/-- The error at the position `p`. -/
def LexError.placed (p : Position) : LexError → LexError
  | unexpectedCharacter c _ => unexpectedCharacter c p
  | unterminatedString _ => unterminatedString p
  | invalidMarker text _ => invalidMarker text p
  | numberTooLarge text _ => numberTooLarge text p

/-- The error at the position `p`. -/
def ParseError.placed (p : Position) : ParseError → ParseError
  | expected what found _ => expected what found p
  | duplicateParameter name _ => duplicateParameter name p

/-- The error at the position `p`, unless it stands nowhere. -/
def RuntimeError.placed (p : Position) : RuntimeError → RuntimeError
  | typeError fault _ => typeError fault p
  | undefinedVariable name _ => undefinedVariable name p
  | undefinedFunction name _ => undefinedFunction name p
  | constReassignment name _ => constReassignment name p
  | missingEntryPoint fault => missingEntryPoint fault
  | unknownOperator op _ => unknownOperator op p
  | argumentCount name expected found _ => argumentCount name expected found p
  | stackOverflow name limit _ => stackOverflow name limit p
  | functionAlreadyDefined name _ => functionAlreadyDefined name p
  | builtinRedefinition name _ => builtinRedefinition name p
  | returnOutsideFunction _ => returnOutsideFunction p
  | indexOutOfBounds index length _ => indexOutOfBounds index length p
  | unknownProperty property _ => unknownProperty property p
  | io failure _ => io failure p

namespace Error

/-- The error at the position `p`, unless it stands nowhere. -/
def placed (p : Position) : Error → Error
  | lex cause => lex (cause.placed p)
  | parse cause => parse (cause.placed p)
  | runtime cause => runtime (cause.placed p)

/-- The errors are of the same kind with the same fields; their positions, if any, are related. -/
structure Moved (R : Position → Position → Prop) (cause other : Error) : Prop where
  placed : ∀ p, cause.placed p = other.placed p
  position? : Option.Rel R cause.position? other.position?

theorem Moved.mono {cause other : Error} (h : cause.Moved R other)
    (hRS : ∀ p q, R p q → S p q) : cause.Moved S other := by
  obtain ⟨hplaced, hposition⟩ := h
  refine ⟨hplaced, ?_⟩
  generalize cause.position? = p?, other.position? = q? at hposition ⊢
  cases hposition with
  | some hp => exact .some (hRS _ _ hp)
  | none => exact .none

theorem placed_position? (cause : Error) :
    cause.placed (cause.position?.getD .unknown) = cause := by
  rcases cause with cause | cause | cause <;> cases cause <;> rfl

theorem Moved.eq {cause other : Error} (h : cause.Moved Eq other) : cause = other := by
  have hposition : cause.position? = other.position? := by
    obtain ⟨-, hposition⟩ := h
    generalize cause.position? = p?, other.position? = q? at hposition ⊢
    cases hposition with
    | some hp => exact congrArg some hp
    | none => rfl
  rw [← cause.placed_position?, h.placed, hposition, other.placed_position?]

end Error

abbrev ParseError.Moved (R : Position → Position → Prop) (cause other : ParseError) : Prop :=
  (Error.parse cause).Moved R (.parse other)

abbrev RuntimeError.Moved (R : Position → Position → Prop) (cause other : RuntimeError) : Prop :=
  (Error.runtime cause).Moved R (.runtime other)

/-! ## Declarations -/

structure DeclaredType.Moved (R : Position → Position → Prop) (type other : DeclaredType) :
    Prop where
  name : type.name = other.name
  constant : type.constant = other.constant
  position : R type.position other.position

structure Parameter.Moved (R : Position → Position → Prop) (param other : Parameter) : Prop where
  name : param.name = other.name
  type : Option.Rel (DeclaredType.Moved R) param.type other.type
  mutability : param.mutability = other.mutability
  position : R param.position other.position

/-- The functions may differ in their bodies besides. -/
structure Function.HeaderMoved (R : Position → Position → Prop) (f g : Function) : Prop where
  name : f.name = g.name
  params : List.Forall₂ (Parameter.Moved R) f.params g.params
  returnType : Option.Rel (DeclaredType.Moved R) f.returnType g.returnType
  position : R f.position g.position

theorem optionRel_refl {α : Type} {r : α → α → Prop} (h : ∀ a, r a a) :
    ∀ a? : Option α, Option.Rel r a? a?
  | some a => .some (h a)
  | none => .none

theorem optionRel_isSome {α β : Type} {r : α → β → Prop} {a? : Option α} {b? : Option β}
    (h : Option.Rel r a? b?) : a?.isSome = b?.isSome := by
  cases h <;> rfl

theorem forall₂_isEmpty {α β : Type} {r : α → β → Prop} {as : List α} {bs : List β}
    (h : List.Forall₂ r as bs) : as.isEmpty = bs.isEmpty := by
  cases h <;> rfl

section

variable (hR : ∀ p, R p p)

include hR

theorem DeclaredType.moved_refl (type : DeclaredType) : type.Moved R type :=
  ⟨rfl, rfl, hR _⟩

theorem Parameter.moved_refl (param : Parameter) : param.Moved R param :=
  ⟨rfl, optionRel_refl (DeclaredType.moved_refl hR) _, rfl, hR _⟩

end

/-! ## Expressions -/

mutual

inductive Expr.Moved (R : Position → Position → Prop) : Expr → Expr → Prop
  | literal {value : Literal} {p q : Position} (hp : R p q) :
    Expr.Moved R (.literal value p) (.literal value q)
  | var {name : String} {p q : Position} (hp : R p q) : Expr.Moved R (.var name p) (.var name q)
  | not {operand operand' : Expr} {p q : Position} (h : Expr.Moved R operand operand')
    (hp : R p q) : Expr.Moved R (.not operand p) (.not operand' q)
  | binary {left left' right right' : Expr} {op : Operator} {p q : Position}
    (hleft : Expr.Moved R left left') (hright : Expr.Moved R right right') (hp : R p q) :
    Expr.Moved R (.binary left op right p) (.binary left' op right' q)
  | call {callee : String} {arguments arguments' : List Expr} {p q : Position}
    (h : Expr.AllMoved R arguments arguments') (hp : R p q) :
    Expr.Moved R (.call callee arguments p) (.call callee arguments' q)
  | array {elements elements' : List Expr} {p q : Position}
    (h : Expr.AllMoved R elements elements') (hp : R p q) :
    Expr.Moved R (.array elements p) (.array elements' q)
  | object {fields fields' : List (String × Expr)} {p q : Position}
    (h : Expr.FieldsMoved R fields fields') (hp : R p q) :
    Expr.Moved R (.object fields p) (.object fields' q)
  | index {target target' selector selector' : Expr} {p q : Position}
    (htarget : Expr.Moved R target target') (hselector : Expr.Moved R selector selector')
    (hp : R p q) : Expr.Moved R (.index target selector p) (.index target' selector' q)
  | member {target target' : Expr} {property : String} {p q : Position}
    (h : Expr.Moved R target target') (hp : R p q) :
    Expr.Moved R (.member target property p) (.member target' property q)

inductive Expr.AllMoved (R : Position → Position → Prop) : List Expr → List Expr → Prop
  | nil : Expr.AllMoved R [] []
  | cons {expr expr' : Expr} {exprs exprs' : List Expr} (h : Expr.Moved R expr expr')
    (hrest : Expr.AllMoved R exprs exprs') : Expr.AllMoved R (expr :: exprs) (expr' :: exprs')

inductive Expr.FieldsMoved (R : Position → Position → Prop) :
    List (String × Expr) → List (String × Expr) → Prop
  | nil : Expr.FieldsMoved R [] []
  | cons {key : String} {expr expr' : Expr} {fields fields' : List (String × Expr)}
    (h : Expr.Moved R expr expr') (hrest : Expr.FieldsMoved R fields fields') :
    Expr.FieldsMoved R ((key, expr) :: fields) ((key, expr') :: fields')

end

mutual

theorem Expr.moved_refl (hR : ∀ p, R p p) : ∀ expr : Expr, expr.Moved R expr
  | .var _ _ => .var (hR _)
  | .literal _ _ => .literal (hR _)
  | .not operand _ => .not (operand.moved_refl hR) (hR _)
  | .binary left _ right _ => .binary (left.moved_refl hR) (right.moved_refl hR) (hR _)
  | .call _ arguments _ => .call (Expr.allMoved_refl hR arguments) (hR _)
  | .array elements _ => .array (Expr.allMoved_refl hR elements) (hR _)
  | .object fields _ => .object (Expr.fieldsMoved_refl hR fields) (hR _)
  | .index target selector _ => .index (target.moved_refl hR) (selector.moved_refl hR) (hR _)
  | .member target _ _ => .member (target.moved_refl hR) (hR _)

theorem Expr.allMoved_refl (hR : ∀ p, R p p) : ∀ exprs, Expr.AllMoved R exprs exprs
  | [] => .nil
  | expr :: exprs => .cons (expr.moved_refl hR) (Expr.allMoved_refl hR exprs)

theorem Expr.fieldsMoved_refl (hR : ∀ p, R p p) : ∀ fields, Expr.FieldsMoved R fields fields
  | [] => .nil
  | (_, expr) :: fields => .cons (expr.moved_refl hR) (Expr.fieldsMoved_refl hR fields)

end

/-! ## Statements -/

mutual

inductive Statement.Moved (R : Position → Position → Prop) : Statement → Statement → Prop
  | declaration {kind : Mutability} {name : String} {type type' : Option DeclaredType}
    {init init' : Expr} {p q : Position} (htype : Option.Rel (DeclaredType.Moved R) type type')
    (hinit : init.Moved R init') (hp : R p q) :
    Statement.Moved R (.declaration kind name type init p) (.declaration kind name type' init' q)
  | assignment {name : String} {value value' : Expr} {p q : Position}
    (hvalue : value.Moved R value') (hp : R p q) :
    Statement.Moved R (.assignment name value p) (.assignment name value' q)
  | function {f g : Function} (h : Function.Moved R f g) :
    Statement.Moved R (.function f) (.function g)
  | returnValue {value value' : Expr} {p q : Position} (hvalue : value.Moved R value')
    (hp : R p q) : Statement.Moved R (.returnValue value p) (.returnValue value' q)
  | expression {expr expr' : Expr} {p q : Position} (hexpr : expr.Moved R expr') (hp : R p q) :
    Statement.Moved R (.expression expr p) (.expression expr' q)
  | conditional {branches branches' : List Branch} {otherwise otherwise' : Option (List Statement)}
    {p q : Position} (hbranches : Statement.BranchesMoved R branches branches')
    (hotherwise : Statement.OtherwiseMoved R otherwise otherwise') (hp : R p q) :
    Statement.Moved R (.conditional branches otherwise p) (.conditional branches' otherwise' q)
  | whileLoop {condition condition' : Expr} {body body' : List Statement} {p q : Position}
    (hcondition : condition.Moved R condition') (hbody : Statement.AllMoved R body body')
    (hp : R p q) : Statement.Moved R (.whileLoop condition body p) (.whileLoop condition' body' q)
  | forLoop {init init' update update' : Statement} {condition condition' : Expr}
    {body body' : List Statement} {p q : Position} (hinit : Statement.Moved R init init')
    (hcondition : condition.Moved R condition') (hupdate : Statement.Moved R update update')
    (hbody : Statement.AllMoved R body body') (hp : R p q) :
    Statement.Moved R (.forLoop init condition update body p)
      (.forLoop init' condition' update' body' q)

inductive Function.Moved (R : Position → Position → Prop) : Function → Function → Prop
  | mk {f g : Function} (hheader : f.HeaderMoved R g) (hbody : Statement.AllMoved R f.body g.body) :
    Function.Moved R f g

inductive Statement.AllMoved (R : Position → Position → Prop) :
    List Statement → List Statement → Prop
  | nil : Statement.AllMoved R [] []
  | cons {statement statement' : Statement} {statements statements' : List Statement}
    (h : Statement.Moved R statement statement')
    (hrest : Statement.AllMoved R statements statements') :
    Statement.AllMoved R (statement :: statements) (statement' :: statements')

inductive Statement.BranchesMoved (R : Position → Position → Prop) :
    List Branch → List Branch → Prop
  | nil : Statement.BranchesMoved R [] []
  | cons {branch branch' : Branch} {branches branches' : List Branch}
    (hcondition : branch.condition.Moved R branch'.condition)
    (hbody : Statement.AllMoved R branch.body branch'.body)
    (hrest : Statement.BranchesMoved R branches branches') :
    Statement.BranchesMoved R (branch :: branches) (branch' :: branches')

inductive Statement.OtherwiseMoved (R : Position → Position → Prop) :
    Option (List Statement) → Option (List Statement) → Prop
  | none : Statement.OtherwiseMoved R .none .none
  | some {body body' : List Statement} (h : Statement.AllMoved R body body') :
    Statement.OtherwiseMoved R (.some body) (.some body')

end

def Program.Moved (R : Position → Position → Prop) (program other : Program) : Prop :=
  Statement.AllMoved R program.body other.body

/-! ## Copies at the same positions -/

theorem optionRel_eq {α : Type} {r : α → α → Prop} {a? b? : Option α} (h : Option.Rel r a? b?)
    (hr : ∀ {a b}, r a b → a = b) : a? = b? := by
  cases h with
  | some h => exact congrArg some (hr h)
  | none => rfl

theorem DeclaredType.Moved.eq {type other : DeclaredType} (h : type.Moved Eq other) :
    type = other := by
  cases type
  cases other
  obtain ⟨rfl, rfl, rfl⟩ := h
  rfl

theorem Parameter.Moved.eq {param other : Parameter} (h : param.Moved Eq other) :
    param = other := by
  cases param
  cases other
  obtain ⟨rfl, htype, rfl, rfl⟩ := h
  obtain rfl := optionRel_eq htype DeclaredType.Moved.eq
  rfl

mutual

theorem Expr.Moved.eq : ∀ {expr other : Expr}, expr.Moved Eq other → expr = other
  | _, _, .literal rfl => rfl
  | _, _, .var rfl => rfl
  | _, _, .not h rfl => by rw [h.eq]
  | _, _, .binary hleft hright rfl => by rw [hleft.eq, hright.eq]
  | _, _, .call h rfl => by rw [h.eq]
  | _, _, .array h rfl => by rw [h.eq]
  | _, _, .object h rfl => by rw [h.eq]
  | _, _, .index htarget hselector rfl => by rw [htarget.eq, hselector.eq]
  | _, _, .member h rfl => by rw [h.eq]

theorem Expr.AllMoved.eq : ∀ {exprs others : List Expr}, Expr.AllMoved Eq exprs others →
    exprs = others
  | _, _, .nil => rfl
  | _, _, .cons h hrest => by rw [h.eq, hrest.eq]

theorem Expr.FieldsMoved.eq : ∀ {fields others : List (String × Expr)},
    Expr.FieldsMoved Eq fields others → fields = others
  | _, _, .nil => rfl
  | _, _, .cons h hrest => by rw [h.eq, hrest.eq]

end

mutual

theorem Statement.Moved.eq : ∀ {statement other : Statement}, statement.Moved Eq other →
    statement = other
  | _, _, .declaration htype hinit rfl => by rw [optionRel_eq htype DeclaredType.Moved.eq, hinit.eq]
  | _, _, .assignment hvalue rfl => by rw [hvalue.eq]
  | _, _, .function h => by rw [h.eq]
  | _, _, .returnValue hvalue rfl => by rw [hvalue.eq]
  | _, _, .expression hexpr rfl => by rw [hexpr.eq]
  | _, _, .conditional hbranches hotherwise rfl => by rw [hbranches.eq, hotherwise.eq]
  | _, _, .whileLoop hcondition hbody rfl => by rw [hcondition.eq, hbody.eq]
  | _, _, .forLoop hinit hcondition hupdate hbody rfl => by
    rw [hinit.eq, hcondition.eq, hupdate.eq, hbody.eq]

theorem Function.Moved.eq : ∀ {f g : Function}, f.Moved Eq g → f = g
  | ⟨_, _, _, _, _⟩, ⟨_, _, _, _, _⟩, .mk ⟨hname, hparams, htype, hposition⟩ hbody => by
    have hparams := List.forall₂_eq_eq_eq ▸ hparams.imp fun _ _ => Parameter.Moved.eq
    have htype := optionRel_eq htype DeclaredType.Moved.eq
    rw [Function.mk.injEq]
    exact ⟨hname, hparams, htype, hbody.eq, hposition⟩

theorem Statement.AllMoved.eq : ∀ {statements others : List Statement},
    Statement.AllMoved Eq statements others → statements = others
  | _, _, .nil => rfl
  | _, _, .cons h hrest => by rw [h.eq, hrest.eq]

theorem Statement.BranchesMoved.eq : ∀ {branches others : List Branch},
    Statement.BranchesMoved Eq branches others → branches = others
  | _, _, .nil => rfl
  | ⟨_, _⟩ :: _, ⟨_, _⟩ :: _, .cons hcondition hbody hrest => by
    rw [List.cons.injEq, Branch.mk.injEq]
    exact ⟨⟨hcondition.eq, hbody.eq⟩, hrest.eq⟩

theorem Statement.OtherwiseMoved.eq : ∀ {otherwise other : Option (List Statement)},
    Statement.OtherwiseMoved Eq otherwise other → otherwise = other
  | _, _, .none => rfl
  | _, _, .some h => by rw [h.eq]

end

theorem Program.Moved.eq {program other : Program} (h : program.Moved Eq other) :
    program = other :=
  congrArg Program.mk (Statement.AllMoved.eq h)

end Arrow
