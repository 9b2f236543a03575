import Arrow.Evaluation.Statement
import Mathlib.Data.Set.Insert

/-!
# Names that a program mentions

`ConfinedTo` bounds what a part of a program mentions: the names that it reads and writes, and the
functions that it calls. A function may mention its own parameters besides the names that are free
in it, whether it stands in a function table or in the body of another function. Every part is
confined to all names and all functions.
-/

namespace Arrow

mutual

/-- An expression reads only `names` and calls only `callees`. -/
def Expr.ConfinedTo (names callees : Set String) : Expr → Prop
  | .literal _ _ => True
  | .var name _ => name ∈ names
  | .not operand _ => operand.ConfinedTo names callees
  | .binary left _ right _ => left.ConfinedTo names callees ∧ right.ConfinedTo names callees
  | .call callee arguments _ => callee ∈ callees ∧ Expr.AllConfinedTo names callees arguments
  | .array elements _ => Expr.AllConfinedTo names callees elements
  | .object fields _ => Expr.FieldsConfinedTo names callees fields
  | .index target selector _ => target.ConfinedTo names callees ∧ selector.ConfinedTo names callees
  | .member target _ _ => target.ConfinedTo names callees

def Expr.AllConfinedTo (names callees : Set String) : List Expr → Prop
  | [] => True
  | expr :: exprs => expr.ConfinedTo names callees ∧ Expr.AllConfinedTo names callees exprs

def Expr.FieldsConfinedTo (names callees : Set String) : List (String × Expr) → Prop
  | [] => True
  | (_, expr) :: fields =>
    expr.ConfinedTo names callees ∧ Expr.FieldsConfinedTo names callees fields

end

/-- The names of parameters. -/
def Parameter.names (params : List Parameter) : Set String :=
  {name | name ∈ params.map (·.name)}

theorem Parameter.names_nil : Parameter.names [] = ∅ := by
  simp [Parameter.names]

theorem Parameter.names_cons (param : Parameter) (params : List Parameter) :
    Parameter.names (param :: params) = insert param.name (Parameter.names params) := by
  ext name
  exact List.mem_cons

mutual

/--
A statement reads and writes only `names` and calls only `callees`; in functions that it declares,
`free` takes the place of `names`.
-/
def Statement.ConfinedTo (free callees : Set String) (names : Set String) : Statement → Prop
  | .declaration _ name _ init _ => name ∈ names ∧ init.ConfinedTo names callees
  | .assignment name value _ => name ∈ names ∧ value.ConfinedTo names callees
  | .function definition => definition.ConfinedTo free callees
  | .returnValue value _ => value.ConfinedTo names callees
  | .expression expr _ => expr.ConfinedTo names callees
  | .conditional branches otherwise _ =>
    Statement.BranchesConfinedTo free callees names branches ∧
      Statement.OtherwiseConfinedTo free callees names otherwise
  | .whileLoop condition body _ =>
    condition.ConfinedTo names callees ∧ Statement.AllConfinedTo free callees names body
  | .forLoop init condition update body _ =>
    init.ConfinedTo free callees names ∧ condition.ConfinedTo names callees ∧
      update.ConfinedTo free callees names ∧ Statement.AllConfinedTo free callees names body

/-- The body of a function mentions only `free`, its parameters and `callees`. -/
def Function.ConfinedTo (free callees : Set String) : Function → Prop
  | ⟨_, params, _, body, _⟩ =>
    Statement.AllConfinedTo free callees (free ∪ Parameter.names params) body

def Statement.AllConfinedTo (free callees : Set String) (names : Set String) :
    List Statement → Prop
  | [] => True
  | statement :: statements =>
    statement.ConfinedTo free callees names ∧ Statement.AllConfinedTo free callees names statements

def Statement.BranchesConfinedTo (free callees : Set String) (names : Set String) :
    List Branch → Prop
  | [] => True
  | ⟨condition, body⟩ :: branches =>
    condition.ConfinedTo names callees ∧ Statement.AllConfinedTo free callees names body ∧
      Statement.BranchesConfinedTo free callees names branches

def Statement.OtherwiseConfinedTo (free callees : Set String) (names : Set String) :
    Option (List Statement) → Prop
  | none => True
  | some body => Statement.AllConfinedTo free callees names body

end

theorem Function.ConfinedTo.body {free callees : Set String} {f : Function}
    (h : f.ConfinedTo free callees) :
    Statement.AllConfinedTo free callees (free ∪ Parameter.names f.params) f.body := by
  cases f
  exact h

/-! ## No restriction -/

mutual

theorem Expr.confinedTo_univ : ∀ expr : Expr, expr.ConfinedTo .univ .univ
  | .literal _ _ => trivial
  | .var _ _ => trivial
  | .not operand _ => operand.confinedTo_univ
  | .binary left _ right _ => ⟨left.confinedTo_univ, right.confinedTo_univ⟩
  | .call _ arguments _ => ⟨trivial, Expr.allConfinedTo_univ arguments⟩
  | .array elements _ => Expr.allConfinedTo_univ elements
  | .object fields _ => Expr.fieldsConfinedTo_univ fields
  | .index target selector _ => ⟨target.confinedTo_univ, selector.confinedTo_univ⟩
  | .member target _ _ => target.confinedTo_univ

theorem Expr.allConfinedTo_univ : ∀ exprs : List Expr, Expr.AllConfinedTo .univ .univ exprs
  | [] => trivial
  | expr :: exprs => ⟨expr.confinedTo_univ, Expr.allConfinedTo_univ exprs⟩

theorem Expr.fieldsConfinedTo_univ :
    ∀ fields : List (String × Expr), Expr.FieldsConfinedTo .univ .univ fields
  | [] => trivial
  | (_, expr) :: fields => ⟨expr.confinedTo_univ, Expr.fieldsConfinedTo_univ fields⟩

end

mutual

theorem Statement.confinedTo_univ :
    ∀ statement : Statement, statement.ConfinedTo .univ .univ .univ
  | .declaration _ _ _ init _ => ⟨trivial, init.confinedTo_univ⟩
  | .assignment _ value _ => ⟨trivial, value.confinedTo_univ⟩
  | .function definition => definition.confinedTo_univ
  | .returnValue value _ => value.confinedTo_univ
  | .expression expr _ => expr.confinedTo_univ
  | .conditional branches otherwise _ =>
    ⟨Statement.branchesConfinedTo_univ branches, Statement.otherwiseConfinedTo_univ otherwise⟩
  | .whileLoop condition body _ => ⟨condition.confinedTo_univ, Statement.allConfinedTo_univ body⟩
  | .forLoop init condition update body _ =>
    ⟨init.confinedTo_univ, condition.confinedTo_univ, update.confinedTo_univ,
      Statement.allConfinedTo_univ body⟩

theorem Function.confinedTo_univ : ∀ f : Function, f.ConfinedTo .univ .univ
  | ⟨_, params, _, body, _⟩ => by
    unfold Function.ConfinedTo
    rw [Set.univ_union]
    exact Statement.allConfinedTo_univ body

theorem Statement.allConfinedTo_univ :
    ∀ statements : List Statement, Statement.AllConfinedTo .univ .univ .univ statements
  | [] => trivial
  | statement :: statements => ⟨statement.confinedTo_univ, Statement.allConfinedTo_univ statements⟩

theorem Statement.branchesConfinedTo_univ :
    ∀ branches : List Branch, Statement.BranchesConfinedTo .univ .univ .univ branches
  | [] => trivial
  | ⟨condition, body⟩ :: branches =>
    ⟨condition.confinedTo_univ, Statement.allConfinedTo_univ body,
      Statement.branchesConfinedTo_univ branches⟩

theorem Statement.otherwiseConfinedTo_univ :
    ∀ otherwise : Option (List Statement),
      Statement.OtherwiseConfinedTo .univ .univ .univ otherwise
  | none => trivial
  | some body => Statement.allConfinedTo_univ body

end

/-! ## Function tables -/

/-- The functions of a table that `callees` names mention only `free` and `callees`. -/
def FunctionTable.ConfinedTo (free callees : Set String) (functions : FunctionTable) : Prop :=
  ∀ name ∈ callees, ∀ f, functions.find? name = some f → f.ConfinedTo free callees

theorem FunctionTable.confinedTo_univ (functions : FunctionTable) :
    functions.ConfinedTo .univ .univ :=
  fun _ _ f _ => f.confinedTo_univ

end Arrow
