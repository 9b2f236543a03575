import Arrow.Evaluation.Program

/-!
# From nodes to runs

`All E S` says of a part of a program that `E` holds of every expression in it and `S` of every
statement, those in the functions that it declares included. `RunRules` are rules for a property of
actions: sequences and loops inherit it from their parts, and the last step of a node has it where
`E` or `S` holds of the node. By such rules all runs of such a part have the property.
-/

namespace Arrow

/-! ## All nodes -/

namespace Expr

mutual

/-- `E` holds of the expression and of every expression in it. -/
def All (E : Expr → Prop) : Expr → Prop
  | literal value p => E (literal value p)
  | var name p => E (var name p)
  | not operand p => E (not operand p) ∧ operand.All E
  | binary left op right p => E (binary left op right p) ∧ left.All E ∧ right.All E
  | call callee arguments p => E (call callee arguments p) ∧ AllIn E arguments
  | array elements p => E (array elements p) ∧ AllIn E elements
  | object fields p => E (object fields p) ∧ AllInFields E fields
  | index target selector p => E (index target selector p) ∧ target.All E ∧ selector.All E
  | member target property p => E (member target property p) ∧ target.All E

def AllIn (E : Expr → Prop) : List Expr → Prop
  | [] => True
  | expr :: exprs => expr.All E ∧ AllIn E exprs

def AllInFields (E : Expr → Prop) : List (String × Expr) → Prop
  | [] => True
  | (_, expr) :: fields => expr.All E ∧ AllInFields E fields

end

end Expr

mutual

/-- `E` holds of every expression in the statement, and `S` of it and every statement in it. -/
def Statement.All (E : Expr → Prop) (S : Statement → Prop) : Statement → Prop
  | .declaration kind name type init p => S (.declaration kind name type init p) ∧ init.All E
  | .assignment name value p => S (.assignment name value p) ∧ value.All E
  | .function definition => S (.function definition) ∧ definition.All E S
  | .returnValue value p => S (.returnValue value p) ∧ value.All E
  | .expression expr p => S (.expression expr p) ∧ expr.All E
  | .conditional branches otherwise p =>
    S (.conditional branches otherwise p) ∧ Statement.AllInBranches E S branches ∧
      Statement.AllInOtherwise E S otherwise
  | .whileLoop condition body p =>
    S (.whileLoop condition body p) ∧ condition.All E ∧ Statement.AllIn E S body
  | .forLoop init condition update body p =>
    S (.forLoop init condition update body p) ∧ init.All E S ∧ condition.All E ∧
      update.All E S ∧ Statement.AllIn E S body

/-- `E` and `S` hold of all nodes in the body of the function. -/
def Function.All (E : Expr → Prop) (S : Statement → Prop) : Function → Prop
  | ⟨_, _, _, body, _⟩ => Statement.AllIn E S body

def Statement.AllIn (E : Expr → Prop) (S : Statement → Prop) : List Statement → Prop
  | [] => True
  | statement :: statements => statement.All E S ∧ Statement.AllIn E S statements

def Statement.AllInBranches (E : Expr → Prop) (S : Statement → Prop) : List Branch → Prop
  | [] => True
  | ⟨condition, body⟩ :: branches =>
    condition.All E ∧ Statement.AllIn E S body ∧ Statement.AllInBranches E S branches

def Statement.AllInOtherwise (E : Expr → Prop) (S : Statement → Prop) :
    Option (List Statement) → Prop
  | none => True
  | some body => Statement.AllIn E S body

end

/-- `E` and `S` hold of all nodes of the program. -/
def Program.All (E : Expr → Prop) (S : Statement → Prop) (program : Program) : Prop :=
  Statement.AllIn E S program.body

/-- `E` and `S` hold of all nodes of the functions of the table. -/
def FunctionTable.All (E : Expr → Prop) (S : Statement → Prop) (functions : FunctionTable) : Prop :=
  ∀ name f, functions.find? name = some f → f.All E S

section

variable {E : Expr → Prop} {S : Statement → Prop}

theorem Function.All.body {f : Function} (h : f.All E S) : Statement.AllIn E S f.body := by
  cases f
  exact h

mutual

theorem Expr.all_of_forall (h : ∀ expr, E expr) : ∀ expr : Expr, expr.All E
  | .literal _ _ => h _
  | .var _ _ => h _
  | .not operand _ => ⟨h _, operand.all_of_forall h⟩
  | .binary left _ right _ => ⟨h _, left.all_of_forall h, right.all_of_forall h⟩
  | .call _ arguments _ => ⟨h _, Expr.allIn_of_forall h arguments⟩
  | .array elements _ => ⟨h _, Expr.allIn_of_forall h elements⟩
  | .object fields _ => ⟨h _, Expr.allInFields_of_forall h fields⟩
  | .index target selector _ => ⟨h _, target.all_of_forall h, selector.all_of_forall h⟩
  | .member target _ _ => ⟨h _, target.all_of_forall h⟩

theorem Expr.allIn_of_forall (h : ∀ expr, E expr) : ∀ exprs, Expr.AllIn E exprs
  | [] => trivial
  | expr :: exprs => ⟨expr.all_of_forall h, Expr.allIn_of_forall h exprs⟩

theorem Expr.allInFields_of_forall (h : ∀ expr, E expr) : ∀ fields, Expr.AllInFields E fields
  | [] => trivial
  | (_, expr) :: fields => ⟨expr.all_of_forall h, Expr.allInFields_of_forall h fields⟩

end

theorem Expr.all_true (expr : Expr) : expr.All fun _ => True :=
  expr.all_of_forall fun _ => trivial

mutual

theorem Statement.all_of_forall (hE : ∀ expr, E expr) (hS : ∀ statement, S statement) :
    ∀ statement : Statement, statement.All E S
  | .declaration _ _ _ init _ => ⟨hS _, init.all_of_forall hE⟩
  | .assignment _ value _ => ⟨hS _, value.all_of_forall hE⟩
  | .function ⟨_, _, _, body, _⟩ => ⟨hS _, Statement.allIn_of_forall hE hS body⟩
  | .returnValue value _ => ⟨hS _, value.all_of_forall hE⟩
  | .expression expr _ => ⟨hS _, expr.all_of_forall hE⟩
  | .conditional branches otherwise _ =>
    ⟨hS _, Statement.allInBranches_of_forall hE hS branches, by
      cases otherwise with
      | none => trivial
      | some body => exact Statement.allIn_of_forall hE hS body⟩
  | .whileLoop condition body _ =>
    ⟨hS _, condition.all_of_forall hE, Statement.allIn_of_forall hE hS body⟩
  | .forLoop init condition update body _ =>
    ⟨hS _, init.all_of_forall hE hS, condition.all_of_forall hE, update.all_of_forall hE hS,
      Statement.allIn_of_forall hE hS body⟩

theorem Statement.allIn_of_forall (hE : ∀ expr, E expr) (hS : ∀ statement, S statement) :
    ∀ statements, Statement.AllIn E S statements
  | [] => trivial
  | statement :: statements =>
    ⟨statement.all_of_forall hE hS, Statement.allIn_of_forall hE hS statements⟩

theorem Statement.allInBranches_of_forall (hE : ∀ expr, E expr) (hS : ∀ statement, S statement) :
    ∀ branches, Statement.AllInBranches E S branches
  | [] => trivial
  | ⟨condition, body⟩ :: branches =>
    ⟨condition.all_of_forall hE, Statement.allIn_of_forall hE hS body,
      Statement.allInBranches_of_forall hE hS branches⟩

end

theorem FunctionTable.all_empty : empty.All E S :=
  fun _ _ h => nomatch h

theorem FunctionTable.All.declare {functions functions' : FunctionTable} {definition : Function}
    (h : functions.All E S) (hdefinition : definition.All E S)
    (hdeclare : functions.declare definition = .ok functions') : functions'.All E S := by
  rw [eq_insert_of_declare hdeclare]
  intro name f hf
  rw [find?_insert] at hf
  split at hf
  · cases hf
    exact hdefinition
  · exact h name f hf

end

/-! ## All runs -/

def Statement.IsLoop : Statement → Prop
  | .whileLoop .. => True
  | .forLoop .. => True
  | _ => False

/--
Sequences have the property if their parts have it, and the last step of an expression has it, when
its operands have been evaluated, if `E` holds of the expression.
-/
structure Action.EvalRules (P : (α : Type) → Action α → Prop) (call : Calling) (E : Expr → Prop) :
    Prop where
  pure : ∀ {α : Type} (value : α), P α (pure value)
  bind : ∀ {α β : Type} {action : Action α} {next : α → Action β}, P α action →
    (∀ value, P β (next value)) → P β (action >>= next)
  var : ∀ {name p}, E (.var name p) → P Value ((Expr.var name p).eval call)
  binary : ∀ {left op right p}, E (.binary left op right p) → ∀ a b,
    P Value (Action.check (Value.binary op a b p))
  call : ∀ {callee arguments p}, E (.call callee arguments p) → ∀ args,
    P Value (call callee args p)
  index : ∀ {target selector p}, E (.index target selector p) → ∀ a i,
    P Value (Action.check (Value.index a i p))
  member : ∀ {target property p}, E (.member target property p) → ∀ a,
    P Value (Action.check (Value.member a property p))

/-- Moreover loops have the property if their parts have it, and the last step of a statement. -/
structure Action.RunRules (P : (α : Type) → Action α → Prop) (ctx : Context) (E : Expr → Prop)
    (S : Statement → Prop) : Prop extends Action.EvalRules P ctx.call E where
  declaration : ∀ {kind name type init p}, S (.declaration kind name type init p) → ∀ value,
    P Flow (do
      Action.check (checkDeclared type value s!"Variable '{name}'" p)
      let environment ← Action.check ((← Action.environment).declare name value kind p)
      Action.rebind environment
      return .normal)
  target : ∀ {name expr p}, S (.assignment name expr p) →
    P Unit (do Action.check ((← Action.environment).checkTarget ctx.config.assignment name p))
  assignment : ∀ {name expr p}, S (.assignment name expr p) → ∀ value,
    P Flow (do
      let environment ← Action.check ((← Action.environment).assign name value p)
      Action.rebind environment
      return .normal)
  function : ∀ {definition : Function}, S (.function definition) → definition.All E S →
    P Flow ((Statement.function definition).run ctx)
  loop : ∀ {statement : Statement}, S statement → statement.IsLoop →
    ∀ {round : Action (Option Flow)}, P (Option Flow) round → P Flow (Action.loop ctx.rounds round)

namespace Action.EvalRules

variable {P : (α : Type) → Action α → Prop} {call : Calling} {E : Expr → Prop}

mutual

theorem eval (h : EvalRules P call E) : ∀ expr : Expr, expr.All E → P Value (expr.eval call)
  | .literal _ _, _ => h.pure _
  | .var _ _, hall => h.var hall
  | .not operand _, hall => h.bind (h.eval operand hall.2) fun _ => h.pure _
  | .binary left _ right _, hall =>
    h.bind (h.eval left hall.2.1) fun a => h.bind (h.eval right hall.2.2) fun b =>
      h.binary hall.1 a b
  | .call _ arguments _, hall => h.bind (h.evalAll arguments hall.2) fun args => h.call hall.1 args
  | .array elements _, hall => h.bind (h.evalAll elements hall.2) fun _ => h.pure _
  | .object fields _, hall => h.bind (h.evalFields fields hall.2) fun _ => h.pure _
  | .index target selector _, hall =>
    h.bind (h.eval target hall.2.1) fun a => h.bind (h.eval selector hall.2.2) fun i =>
      h.index hall.1 a i
  | .member target _ _, hall => h.bind (h.eval target hall.2) fun a => h.member hall.1 a

theorem evalAll (h : EvalRules P call E) :
    ∀ exprs : List Expr, Expr.AllIn E exprs → P (List Value) (Expr.evalAll call exprs)
  | [], _ => h.pure _
  | expr :: exprs, hall =>
    h.bind (h.eval expr hall.1) fun _ => h.bind (h.evalAll exprs hall.2) fun _ => h.pure _

theorem evalFields (h : EvalRules P call E) :
    ∀ fields : List (String × Expr), Expr.AllInFields E fields →
      P (List (String × Value)) (Expr.evalFields call fields)
  | [], _ => h.pure _
  | (_, expr) :: fields, hall =>
    h.bind (h.eval expr hall.1) fun _ => h.bind (h.evalFields fields hall.2) fun _ => h.pure _

end

theorem andThen (h : EvalRules P call E) {first second : Action Flow} (hfirst : P Flow first)
    (hsecond : P Flow second) : P Flow (Flow.andThen first second) := by
  refine h.bind hfirst fun flow => ?_
  cases flow with
  | normal => exact hsecond
  | returned value p => exact h.pure _

end Action.EvalRules

namespace Action.RunRules

variable {P : (α : Type) → Action α → Prop} {ctx : Context} {E : Expr → Prop}
  {S : Statement → Prop}

theorem repeatWhile (h : RunRules P ctx E S) {statement : Statement} (hS : S statement)
    (hloop : statement.IsLoop) {condition : Action Value} {body : Action Flow}
    (hcondition : P Value condition) (hbody : P Flow body) :
    P Flow (Flow.repeatWhile ctx.rounds condition body) := by
  refine h.loop hS hloop (h.bind hcondition fun value => ?_)
  split
  · refine h.bind hbody fun flow => ?_
    cases flow with
    | normal => exact h.pure _
    | returned value p => exact h.pure _
  · exact h.pure _

mutual

theorem run (h : RunRules P ctx E S) :
    ∀ statement : Statement, statement.All E S → P Flow (statement.run ctx)
  | .declaration _ _ _ init _, hall =>
    h.bind (h.eval init hall.2) fun value => h.declaration hall.1 value
  | .assignment _ expr _, hall => by
    have htarget := h.bind (h.target hall.1) fun _ =>
      h.bind (h.eval expr hall.2) fun value => h.assignment hall.1 value
    rw [bind_assoc] at htarget
    exact htarget
  | .function _, hall => h.function hall.1 hall.2
  | .returnValue value _, hall => h.bind (h.eval value hall.2) fun _ => h.pure _
  | .expression expr _, hall => h.bind (h.eval expr hall.2) fun _ => h.pure _
  | .conditional branches otherwise _, hall => by
    refine h.bind (h.runBranches branches hall.2.1) fun flow => ?_
    cases flow with
    | none => exact h.runOtherwise otherwise hall.2.2
    | some flow => exact h.pure _
  | .whileLoop condition body _, hall =>
    h.repeatWhile hall.1 trivial (h.eval condition hall.2.1) (h.runAll body hall.2.2)
  | .forLoop init condition update body _, hall =>
    h.andThen (h.run init hall.2.1) (h.repeatWhile hall.1 trivial (h.eval condition hall.2.2.1)
      (h.andThen (h.runAll body hall.2.2.2.2) (h.run update hall.2.2.2.1)))

theorem runAll (h : RunRules P ctx E S) :
    ∀ statements : List Statement, Statement.AllIn E S statements →
      P Flow (Statement.runAll ctx statements)
  | [], _ => h.pure _
  | statement :: statements, hall =>
    h.andThen (h.run statement hall.1) (h.runAll statements hall.2)

theorem runBranches (h : RunRules P ctx E S) :
    ∀ branches : List Branch, Statement.AllInBranches E S branches →
      P (Option Flow) (Statement.runBranches ctx branches)
  | [], _ => h.pure _
  | ⟨condition, body⟩ :: branches, hall => by
    refine h.bind (h.eval condition hall.1) fun value => ?_
    split
    · exact h.bind (h.runAll body hall.2.1) fun _ => h.pure _
    · exact h.runBranches branches hall.2.2

theorem runOtherwise (h : RunRules P ctx E S) :
    ∀ otherwise : Option (List Statement), Statement.AllInOtherwise E S otherwise →
      P Flow (Statement.runOtherwise ctx otherwise)
  | none, _ => h.pure _
  | some body, hall => h.runAll body hall

end

/-- Outermost statements also have the property if the failure of one that returns has it. -/
theorem runBody (h : RunRules P ctx E S) (hreturn : ∀ p, P Unit (fail (.returnOutsideFunction p))) :
    ∀ statements : List Statement, Statement.AllIn E S statements →
      P Unit (Program.runBody ctx statements)
  | [], _ => h.pure _
  | statement :: statements, hall => by
    refine h.bind (h.run statement hall.1) fun flow => ?_
    cases flow with
    | normal => exact h.runBody hreturn statements hall.2
    | returned value p => exact hreturn p

end Action.RunRules

end Arrow
