import Arrow.Program
import Arrow.Token

/-!
# Printing programs

The kinds of the tokens that spell a program. Operators bind alike and from left to right, so a
right operand is put in round brackets when it is a chain itself; what a negation applies to and
what is selected from are put in brackets likewise. Declarations have their types in annotations,
and conditions have their arrows.
-/

namespace Arrow

/-! ## Expressions -/

/-- The token of a constant. -/
def Literal.kind : Literal → TokenKind
  | integer n => .number (.integer n)
  | float x => .number (.float x)
  | text content => .text content
  | bool true => .identifier "true"
  | bool false => .identifier "false"
  | null => .identifier "null"

namespace Expr

/-- An expression whose operands are joined by an operator. -/
def isBinary : Expr → Bool
  | binary _ _ _ _ => true
  | _ => false

/-- An expression from which nothing can be selected without brackets around it. -/
def isOperation : Expr → Bool
  | binary _ _ _ _ => true
  | not _ _ => true
  | _ => false

/-- Puts round brackets around tokens where they are needed. -/
def enclosed (needed : Bool) (kinds : List TokenKind) : List TokenKind :=
  if needed then .punctuation '(' :: (kinds ++ [.punctuation ')']) else kinds

/-- Joins the tokens of several items by commas. -/
def separated (parts : List (List TokenKind)) : List TokenKind :=
  [.punctuation ','].intercalate parts

mutual

/-- The tokens of an expression. -/
def kinds : Expr → List TokenKind
  | literal value _ => [value.kind]
  | var name _ => [.identifier name]
  | not operand _ => .operator .not :: enclosed operand.isBinary operand.kinds
  | binary left op right _ =>
    left.kinds ++ .operator op :: enclosed right.isBinary right.kinds
  | call callee arguments _ =>
    .identifier callee :: .punctuation '(' ::
      (separated (kindsAll arguments) ++ [.punctuation ')'])
  | array elements _ =>
    .punctuation '[' :: (separated (kindsAll elements) ++ [.punctuation ']'])
  | object fields _ =>
    .punctuation '\x7b' :: (separated (kindsFields fields) ++ [.punctuation '\x7d'])
  | index target selector _ =>
    enclosed target.isOperation target.kinds ++
      .punctuation '[' :: (selector.kinds ++ [.punctuation ']'])
  | member target property _ =>
    enclosed target.isOperation target.kinds ++ [.punctuation '.', .identifier property]

def kindsAll : List Expr → List (List TokenKind)
  | [] => []
  | expr :: exprs => expr.kinds :: kindsAll exprs

def kindsFields : List (String × Expr) → List (List TokenKind)
  | [] => []
  | (key, expr) :: fields => (.text key :: .punctuation ':' :: expr.kinds) :: kindsFields fields

end

mutual

/-- An expression without its positions. -/
def unplaced : Expr → Expr
  | literal value _ => literal value .unknown
  | var name _ => var name .unknown
  | not operand _ => not operand.unplaced .unknown
  | binary left op right _ => binary left.unplaced op right.unplaced .unknown
  | call callee arguments _ => call callee (unplacedAll arguments) .unknown
  | array elements _ => array (unplacedAll elements) .unknown
  | object fields _ => object (unplacedFields fields) .unknown
  | index target selector _ => index target.unplaced selector.unplaced .unknown
  | member target property _ => member target.unplaced property .unknown

def unplacedAll : List Expr → List Expr
  | [] => []
  | expr :: exprs => expr.unplaced :: unplacedAll exprs

def unplacedFields : List (String × Expr) → List (String × Expr)
  | [] => []
  | (key, expr) :: fields => (key, expr.unplaced) :: unplacedFields fields

end

end Expr

/-- A name that does not stand for a constant. -/
def Bindable (name : String) : Prop :=
  name ≠ "true" ∧ name ≠ "false" ∧ name ≠ "null"

namespace Expr

mutual

/-- Operators join two operands, and only names that can be bound are read or called. -/
def WellFormed : Expr → Prop
  | literal _ _ => True
  | var name _ => Bindable name
  | not operand _ => operand.WellFormed
  | binary left op right _ => op.isBinary ∧ left.WellFormed ∧ right.WellFormed
  | call callee arguments _ => Bindable callee ∧ AllWellFormed arguments
  | array elements _ => AllWellFormed elements
  | object fields _ => FieldsWellFormed fields
  | index target selector _ => target.WellFormed ∧ selector.WellFormed
  | member target _ _ => target.WellFormed

def AllWellFormed : List Expr → Prop
  | [] => True
  | expr :: exprs => expr.WellFormed ∧ AllWellFormed exprs

def FieldsWellFormed : List (String × Expr) → Prop
  | [] => True
  | (_, expr) :: fields => expr.WellFormed ∧ FieldsWellFormed fields

end

/-- The first token of an expression, if it stands outside of brackets, is the name of a call. -/
def opensWithCall : Expr → Bool
  | call _ _ _ => true
  | binary left _ _ _ => left.opensWithCall
  | index target _ _ => !target.isOperation && target.opensWithCall
  | member target _ _ => !target.isOperation && target.opensWithCall
  | _ => false

end Expr

/-! ## Declarations -/

/-- The annotation for a type, if there is one. -/
def DeclaredType.kinds : Option DeclaredType → List TokenKind
  | none => []
  | some ⟨name, true, _⟩ =>
    [.operator .typeOpen, .identifier "const", .identifier name, .operator .typeClose]
  | some ⟨name, false, _⟩ => [.operator .typeOpen, .identifier name, .operator .typeClose]

def DeclaredType.unplaced (type : DeclaredType) : DeclaredType :=
  { type with position := .unknown }

/-- The marker in front of a name, without a type. -/
def Mutability.marker : Mutability → TokenKind
  | const => .keyword (.const none)
  | var => .keyword (.var none)

/-- The type is not the word for constants, and marked constant only where `kind` is. -/
def DeclaredType.Fits (kind : Mutability) (type : Option DeclaredType) : Prop :=
  ∀ declared ∈ type, declared.name ≠ "const" ∧ (declared.constant → kind = .const)

namespace Parameter

def kinds (param : Parameter) : List TokenKind :=
  param.mutability.marker :: .identifier param.name :: DeclaredType.kinds param.type

def unplaced (param : Parameter) : Parameter :=
  { param with type := param.type.map (·.unplaced), position := .unknown }

def WellFormed (param : Parameter) : Prop :=
  Bindable param.name ∧ DeclaredType.Fits param.mutability param.type

end Parameter

/-! ## Statements -/

namespace Statement

/-- Puts braces around the tokens of statements. -/
def braced (kinds : List TokenKind) : List TokenKind :=
  .punctuation '\x7b' :: (kinds ++ [.punctuation '\x7d'])

mutual

/-- The tokens of a statement. -/
def kinds : Statement → List TokenKind
  | declaration kind name type init _ =>
    kind.marker :: .identifier name :: (DeclaredType.kinds type ++ .operator .assign :: init.kinds)
  | assignment name value _ => .identifier name :: .operator .assign :: value.kinds
  | function ⟨name, params, returnType, body, _⟩ =>
    .keyword (.fn none) :: .identifier name :: .punctuation '(' ::
      (Expr.separated (params.map (·.kinds)) ++ .punctuation ')' ::
        (DeclaredType.kinds returnType ++ braced (kindsAll body)))
  | returnValue value _ => .keyword .arrow :: value.kinds
  | expression expr _ => expr.kinds
  | conditional branches otherwise _ =>
    kindsBranches .ifWord branches ++ kindsOtherwise otherwise
  | whileLoop condition body _ =>
    .keyword .whileWord :: .keyword .arrow :: (condition.kinds ++ braced (kindsAll body))
  | forLoop init condition update body _ =>
    .keyword .forWord :: .keyword .arrow :: (init.kinds ++ .punctuation ';' ::
      (condition.kinds ++ .punctuation ';' :: (update.kinds ++ braced (kindsAll body))))

def kindsAll : List Statement → List TokenKind
  | [] => []
  | statement :: statements => statement.kinds ++ kindsAll statements

/-- The tokens of branches; `word` introduces the first of them. -/
def kindsBranches (word : Keyword) : List Branch → List TokenKind
  | [] => []
  | ⟨condition, body⟩ :: branches =>
    .keyword word :: .keyword .arrow ::
      (condition.kinds ++ (braced (kindsAll body) ++ kindsBranches .elifWord branches))

def kindsOtherwise : Option (List Statement) → List TokenKind
  | none => []
  | some body => .keyword .elseWord :: braced (kindsAll body)

end

mutual

/-- A statement without its positions. -/
def unplaced : Statement → Statement
  | declaration kind name type init _ =>
    declaration kind name (type.map (·.unplaced)) init.unplaced .unknown
  | assignment name value _ => assignment name value.unplaced .unknown
  | function ⟨name, params, returnType, body, _⟩ =>
    function ⟨name, params.map (·.unplaced), returnType.map (·.unplaced), unplacedAll body,
      .unknown⟩
  | returnValue value _ => returnValue value.unplaced .unknown
  | expression expr _ => expression expr.unplaced .unknown
  | conditional branches otherwise _ =>
    conditional (unplacedBranches branches) (unplacedOtherwise otherwise) .unknown
  | whileLoop condition body _ => whileLoop condition.unplaced (unplacedAll body) .unknown
  | forLoop init condition update body _ =>
    forLoop init.unplaced condition.unplaced update.unplaced (unplacedAll body) .unknown

def unplacedAll : List Statement → List Statement
  | [] => []
  | statement :: statements => statement.unplaced :: unplacedAll statements

def unplacedBranches : List Branch → List Branch
  | [] => []
  | ⟨condition, body⟩ :: branches =>
    ⟨condition.unplaced, unplacedAll body⟩ :: unplacedBranches branches

def unplacedOtherwise : Option (List Statement) → Option (List Statement)
  | none => none
  | some body => some (unplacedAll body)

end

mutual

/--
What a program says is said in a way that can be read back: names can be bound, types fit their
declarations, parameters are told apart by their names, a conditional has a branch, and a statement
that is an expression begins with a call.
-/
def WellFormed : Statement → Prop
  | declaration kind name type init _ =>
    Bindable name ∧ DeclaredType.Fits kind type ∧ init.WellFormed
  | assignment name value _ => Bindable name ∧ value.WellFormed
  | function ⟨_, params, returnType, body, _⟩ =>
    (∀ param ∈ params, param.WellFormed) ∧ (params.map (·.name)).Nodup ∧
      DeclaredType.Fits .const returnType ∧ AllWellFormed body
  | returnValue value _ => value.WellFormed
  | expression expr _ => expr.WellFormed ∧ expr.opensWithCall
  | conditional branches otherwise _ =>
    branches ≠ [] ∧ BranchesWellFormed branches ∧ OtherwiseWellFormed otherwise
  | whileLoop condition body _ => condition.WellFormed ∧ AllWellFormed body
  | forLoop init condition update body _ =>
    init.WellFormed ∧ condition.WellFormed ∧ update.WellFormed ∧ AllWellFormed body

def AllWellFormed : List Statement → Prop
  | [] => True
  | statement :: statements => statement.WellFormed ∧ AllWellFormed statements

def BranchesWellFormed : List Branch → Prop
  | [] => True
  | ⟨condition, body⟩ :: branches =>
    condition.WellFormed ∧ AllWellFormed body ∧ BranchesWellFormed branches

def OtherwiseWellFormed : Option (List Statement) → Prop
  | none => True
  | some body => AllWellFormed body

end

end Statement

namespace Program

/-- The tokens of a program, without the end of input. -/
def kinds (program : Program) : List TokenKind :=
  Statement.kindsAll program.body

/-- A program without its positions. -/
def unplaced (program : Program) : Program :=
  ⟨Statement.unplacedAll program.body⟩

def WellFormed (program : Program) : Prop :=
  Statement.AllWellFormed program.body

end Program

end Arrow
