import Arrow.Proofs.Evaluation.Avoids
import Arrow.Proofs.Evaluation.Compositional

/-!
# Programs without loops

`LoopFree` says that no loop stands anywhere in a part of a program, not even in a function that it
declares. Where all declared functions are loop-free, too, such a part is never exhausted as long as
its calls are not: it `Finishes`, with a result or an error.
-/

namespace Arrow

mutual

/-- No loop stands in the statement. -/
def Statement.LoopFree : Statement → Prop
  | .function definition => definition.LoopFree
  | .conditional branches otherwise _ =>
    Statement.BranchesLoopFree branches ∧ Statement.OtherwiseLoopFree otherwise
  | .whileLoop .. => False
  | .forLoop .. => False
  | _ => True

/-- No loop stands in the body of the function. -/
def Function.LoopFree : Function → Prop
  | ⟨_, _, _, body, _⟩ => Statement.AllLoopFree body

def Statement.AllLoopFree : List Statement → Prop
  | [] => True
  | statement :: statements => statement.LoopFree ∧ Statement.AllLoopFree statements

def Statement.BranchesLoopFree : List Branch → Prop
  | [] => True
  | ⟨_, body⟩ :: branches => Statement.AllLoopFree body ∧ Statement.BranchesLoopFree branches

def Statement.OtherwiseLoopFree : Option (List Statement) → Prop
  | none => True
  | some body => Statement.AllLoopFree body

end

theorem Function.LoopFree.body {f : Function} (h : f.LoopFree) : Statement.AllLoopFree f.body := by
  cases f
  exact h

/-- All functions of the table are loop-free. -/
def FunctionTable.LoopFree (functions : FunctionTable) : Prop :=
  ∀ name f, functions.find? name = some f → f.LoopFree

theorem FunctionTable.loopFree_empty : empty.LoopFree :=
  fun _ _ h => nomatch h

theorem FunctionTable.LoopFree.insert {functions : FunctionTable} {definition : Function}
    (h : functions.LoopFree) (hdefinition : definition.LoopFree) :
    (functions.insert definition).LoopFree := by
  intro name f hf
  rw [find?_insert] at hf
  split at hf
  · cases hf
    exact hdefinition
  · exact h name f hf

/-- No loop stands in the program. -/
def Program.LoopFree (program : Program) : Prop :=
  Statement.AllLoopFree program.body

theorem Statement.not_loopFree_of_isLoop :
    ∀ statement : Statement, statement.IsLoop → ¬ statement.LoopFree
  | .whileLoop _ _ _, _, h => h
  | .forLoop _ _ _ _ _, _, h => h

/-! Where no loop stands in a part of a program, none stands in the statements in it. -/

mutual

theorem Statement.LoopFree.all :
    ∀ {statement : Statement}, statement.LoopFree → statement.All (fun _ => True) Statement.LoopFree
  | .declaration _ _ _ init _, h => ⟨h, init.all_true⟩
  | .assignment _ value _, h => ⟨h, value.all_true⟩
  | .function ⟨_, _, _, _, _⟩, h => ⟨h, Statement.AllLoopFree.all h⟩
  | .returnValue value _, h => ⟨h, value.all_true⟩
  | .expression expr _, h => ⟨h, expr.all_true⟩
  | .conditional _ none _, h => ⟨h, Statement.BranchesLoopFree.all h.1, trivial⟩
  | .conditional _ (some _) _, h =>
    ⟨h, Statement.BranchesLoopFree.all h.1, Statement.AllLoopFree.all h.2⟩

theorem Statement.AllLoopFree.all : ∀ {statements : List Statement},
    Statement.AllLoopFree statements →
      Statement.AllIn (fun _ => True) Statement.LoopFree statements
  | [], _ => trivial
  | _ :: _, h => ⟨h.1.all, Statement.AllLoopFree.all h.2⟩

theorem Statement.BranchesLoopFree.all : ∀ {branches : List Branch},
    Statement.BranchesLoopFree branches →
      Statement.AllInBranches (fun _ => True) Statement.LoopFree branches
  | [], _ => trivial
  | ⟨condition, _⟩ :: _, h =>
    ⟨condition.all_true, Statement.AllLoopFree.all h.1,
      Statement.BranchesLoopFree.all h.2⟩

end

theorem Program.LoopFree.all {program : Program} (h : program.LoopFree) :
    program.All (fun _ => True) Statement.LoopFree :=
  Statement.AllLoopFree.all h

/-! ## Actions that finish -/

/-- Only loop-free functions are declared, and the given number of calls is active. -/
structure State.LoopFreeAt (depth : Nat) (state : State) : Prop where
  functions : state.functions.LoopFree
  depth : state.depth = depth

/-- Where all declared functions are loop-free and `depth` calls are active, it is not exhausted. -/
abbrev Action.Finishes {α : Type} (depth : Nat) (action : Action α) : Prop :=
  action.Avoids (· = .exhausted) (State.LoopFreeAt depth)

namespace Action

variable {α : Type} {depth : Nat}

theorem finishes_fail (cause : RuntimeError) : (fail cause : Action α).Finishes depth :=
  avoids_fail nofun

theorem finishes_check (result : Except RuntimeError α) : (check result).Finishes depth :=
  avoids_check fun _ _ => nofun

/-- A call finishes when its body does with one more call active. -/
theorem finishes_within {action : Action α} (h : action.Finishes (depth + 1))
    (frame : Environment) : (within frame action).Finishes depth := by
  refine h.within frame (fun state hstate => ?_) (fun state after hstate hafter => ?_)
  · exact ⟨hstate.functions, congrArg (· + 1) hstate.depth⟩
  · refine ⟨hafter.functions, ?_⟩
    show after.depth - 1 = depth
    rw [hafter.depth, Nat.add_sub_cancel]

end Action

theorem Action.compositional_finishes {depth : Nat} :
    Action.Compositional fun _ action => action.Finishes depth where
  pure := Action.avoids_pure
  fail := Action.finishes_fail
  environment := Action.avoids_environment
  functions := Action.avoids_functions
  depth := Action.avoids_depth
  write _ _ := Action.avoids_write fun _ => nofun
  readLine _ := Action.avoids_readLine fun _ => nofun
  bind := Action.Avoids.bind

/-- Every call finishes. -/
def Calling.Finishes (depth : Nat) (call : Calling) : Prop :=
  ∀ name args p, (call name args p).Finishes depth

/-! ## Statements -/

section Statements

variable {depth : Nat} {ctx : Context}

theorem finishes_declare (name : String) (value : Value) (kind : Mutability) (p : Position) :
    Action.Finishes depth (do
      let environment ← Action.check ((← Action.environment).declare name value kind p)
      Action.rebind environment
      pure Flow.normal) :=
  avoids_declare (fun _ _ _ => nofun) fun _ _ h => ⟨h.functions, h.depth⟩

theorem finishes_define {definition : Function} (h : definition.LoopFree) :
    ((Statement.function definition).run ctx).Finishes depth := by
  refine avoids_define (fun _ _ _ => nofun) fun state functions hstate hdeclare => ?_
  have hfunctions : functions.LoopFree := by
    rw [FunctionTable.eq_insert_of_declare hdeclare]
    exact hstate.functions.insert h
  exact ⟨hfunctions, hstate.depth⟩

theorem Action.runRules_finishes (hcall : ctx.call.Finishes depth) :
    Action.RunRules (fun _ action => action.Finishes depth) ctx (fun _ => True)
      Statement.LoopFree :=
  Action.compositional_finishes.runRules hcall finishes_declare (fun _ h => finishes_define h)
    fun {statement} h hloop => (statement.not_loopFree_of_isLoop hloop h).elim

/-! ## Calls and programs -/

theorem Function.finishes_run {f : Function} (hf : f.LoopFree)
    (hcall : ctx.call.Finishes (depth + 1)) (frame : Environment) (p : Position) :
    (f.run ctx frame p).Finishes depth :=
  have hbody := (Action.runRules_finishes hcall).runAll f.body hf.body.all
  (Action.finishes_within hbody frame).bind fun _ => (Action.finishes_check _).bind fun _ =>
    Action.avoids_pure _

/-- Bodies only have to finish where fewer calls are active than are allowed. -/
theorem Calling.finishes_dispatch {config : Config}
    {body : Function → Environment → Position → Action Value}
    (hbody : depth < config.maxCallDepth → ∀ f : Function, f.LoopFree → ∀ frame p,
      (body f frame p).Finishes depth) :
    Calling.Finishes depth (.dispatch config body) :=
  Calling.avoids_dispatch (fun builtin => Action.compositional_finishes.builtin builtin)
    (fun _ _ => nofun) (fun _ _ _ _ _ _ => nofun) (fun _ _ => nofun)
    fun _ name f hstate hf hlt => hbody (hstate.depth ▸ hlt) f (hstate.functions name f hf)

theorem Program.LoopFree.finishes_run {program : Program} (h : program.LoopFree)
    (hcall : ctx.call.Finishes depth) : (program.run ctx).Finishes depth :=
  Action.compositional_finishes.run hcall (Action.runRules_finishes hcall) h.all

end Statements

end Arrow
