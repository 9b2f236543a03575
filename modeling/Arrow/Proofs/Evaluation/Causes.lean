import Arrow.Proofs.Evaluation.Avoids
import Arrow.Proofs.Evaluation.Nodes

/-!
# Causes that are reserved

An unknown operator, a missing entry point and a return outside functions are causes for which no
check fails but that of an operator. So expressions, statements and calls do not stop for such a
cause, unless one of their operators does (`Excludes.invoke`, `Excludes.runRules`).
-/

namespace Arrow

/-- No check fails for such a cause but that of an operator. -/
def RuntimeError.Reserved : RuntimeError → Prop
  | missingEntryPoint _ => True
  | unknownOperator _ _ => True
  | returnOutsideFunction _ => True
  | _ => False

/-! ## Checks -/

/-- The computation does not fail for a reserved cause. -/
def Unreserved {α : Type} (result : Except RuntimeError α) : Prop :=
  ∀ cause, result = .error cause → ¬ cause.Reserved

namespace Unreserved

variable {α β : Type} {result : Except RuntimeError α} {cause : RuntimeError}

theorem ok (value : α) : Unreserved (.ok value) :=
  fun _ => nofun

theorem error (h : ¬ cause.Reserved) : Unreserved (.error cause : Except RuntimeError α) := by
  intro _ heq
  cases heq
  exact h

theorem bind {next : α → Except RuntimeError β} (h : Unreserved result)
    (hnext : ∀ value, Unreserved (next value)) : Unreserved (result >>= next) := by
  cases result with
  | ok value => exact hnext value
  | error cause => exact error (h cause rfl)

theorem map {f : α → β} (h : Unreserved result) : Unreserved (result.map f) := by
  cases result with
  | ok value => exact ok (f value)
  | error cause => exact error (h cause rfl)

end Unreserved

namespace Value

theorem unreserved_member (target : Value) (property : String) (p : Position) :
    Unreserved (member target property p) := by
  unfold member
  extract_lets found
  clear_value found
  cases found with
  | some value => exact .ok _
  | none => exact .error id

theorem unreserved_select {α : Type} (things : List α) (i : Integer) (p : Position) :
    Unreserved (select things i p) := by
  unfold select
  split
  · exact .ok _
  · exact .error id

theorem unreserved_index (target i : Value) (p : Position) : Unreserved (index target i p) := by
  unfold index
  split
  · exact unreserved_select _ _ p
  · exact (unreserved_select _ _ p).map
  · exact unreserved_member _ _ p
  · exact .error id

theorem unreserved_len (value : Value) (p : Position) : Unreserved (value.len p) := by
  unfold len
  split
  · exact .ok _
  · exact .error id

end Value

theorem unreserved_checkDeclared (type : Option DeclaredType) (value : Value) (subject : String)
    (p : Position) : Unreserved (checkDeclared type value subject p) := by
  cases type with
  | none => exact .ok _
  | some type =>
    show Unreserved (type.check value subject p)
    unfold DeclaredType.check
    split
    · exact .error id
    · split
      · exact .ok _
      · exact .error id

namespace Environment

theorem unreserved_ensureWritable (env : Environment) (name : String) (p : Position) :
    Unreserved (env.ensureWritable name p) := by
  unfold ensureWritable
  split
  · exact .error id
  · exact .ok _

theorem unreserved_declare (env : Environment) (name : String) (value : Value) (kind : Mutability)
    (p : Position) : Unreserved (env.declare name value kind p) :=
  (env.unreserved_ensureWritable name p).map

theorem unreserved_checkTarget (env : Environment) (mode : AssignmentMode) (name : String)
    (p : Position) : Unreserved (env.checkTarget mode name p) := by
  unfold checkTarget
  split
  · exact .error id
  · exact env.unreserved_ensureWritable name p

end Environment

theorem FunctionTable.unreserved_declare (functions : FunctionTable) (definition : Function) :
    Unreserved (functions.declare definition) := by
  unfold declare
  split
  · exact .error id
  · split
    · exact .error id
    · exact .ok _

theorem Function.unreserved_overlayAll (name : String) (p : Position) (params : List Parameter)
    (args : List Value) (environment : Environment) :
    Unreserved (overlayAll name p params args environment) := by
  induction params generalizing args environment with
  | nil => exact .ok _
  | cons param params ih =>
    cases args with
    | nil => exact .ok _
    | cons arg args => exact (unreserved_checkDeclared _ _ _ _).bind fun _ => ih args _

theorem Function.unreserved_frame (f : Function) (args : List Value) (p : Position)
    (environment : Environment) : Unreserved (f.frame args p environment) := by
  unfold frame
  split
  · exact unreserved_overlayAll _ _ _ _ _
  · exact .error id

/-! ## Runs -/

/--
Of all halts only reserved causes are bad, and no operator in an expression for which `E` holds
fails for a bad one.
-/
structure Excludes (bad : Halt → Prop) (E : Expr → Prop) : Prop where
  exhausted : ¬ bad .exhausted
  reserved : ∀ cause, bad (.error (.runtime cause)) → cause.Reserved
  binary : ∀ {left op right p}, E (.binary left op right p) → ∀ a b cause,
    Value.binary op a b p = .error cause → ¬ bad (.error (.runtime cause))

namespace Excludes

variable {bad : Halt → Prop} {E : Expr → Prop} {α : Type}

/-- `E` holds of all expressions in the functions declared so far. -/
def Declared (E : Expr → Prop) (state : State) : Prop :=
  state.functions.All E fun _ => True

theorem not_bad (h : Excludes bad E) {cause : RuntimeError} (hcause : ¬ cause.Reserved) :
    ¬ bad (.error (.runtime cause)) :=
  fun hbad => hcause (h.reserved cause hbad)

theorem check (h : Excludes bad E) {result : Except RuntimeError α} (hresult : Unreserved result) :
    (Action.check result).Avoids bad (Declared E) :=
  Action.avoids_check fun cause hcause => h.not_bad (hresult cause hcause)

theorem fail (h : Excludes bad E) {cause : RuntimeError} (hcause : ¬ cause.Reserved) :
    (Action.fail cause : Action α).Avoids bad (Declared E) :=
  Action.avoids_fail (h.not_bad hcause)

theorem builtin (h : Excludes bad E) (builtin : Builtin) (args : List Value) (p : Position) :
    (builtin.call args p).Avoids bad (Declared E) := by
  have hwrite (text : String) : (Action.write text p).Avoids bad (Declared E) :=
    Action.avoids_write fun _ => h.not_bad id
  have hread : (Builtin.readValue p).Avoids bad (Declared E) := by
    refine (Action.avoids_readLine fun _ => h.not_bad id).bind fun line => ?_
    cases line with
    | none => exact Action.avoids_pure _
    | some line => exact Action.avoids_pure _
  unfold Builtin.call
  split
  · exact (hwrite _).bind fun _ => Action.avoids_pure _
  · exact (hwrite _).bind fun _ => Action.avoids_pure _
  · exact hread
  · exact (hwrite _).bind fun _ => hread
  · exact h.check (Value.unreserved_len _ p)
  · exact Action.avoids_pure _
  · exact h.fail id

theorem evalRules (h : Excludes bad E) {call : Calling}
    (hcall : ∀ name args p, (call name args p).Avoids bad (Declared E)) :
    Action.EvalRules (fun _ action => action.Avoids bad (Declared E)) call E where
  pure := Action.avoids_pure
  bind := Action.Avoids.bind
  var := by
    intro name p _
    refine Action.avoids_environment.bind fun environment => ?_
    cases environment.get? name with
    | none => exact h.fail id
    | some binding => exact Action.avoids_pure _
  binary hE a b := Action.avoids_check (h.binary hE a b)
  call _ args := hcall _ args _
  index _ a i := h.check (Value.unreserved_index a i _)
  member _ a := h.check (Value.unreserved_member a _ _)

theorem runRules (h : Excludes bad E) {ctx : Context}
    (hcall : ∀ name args p, (ctx.call name args p).Avoids bad (Declared E)) :
    Action.RunRules (fun _ action => action.Avoids bad (Declared E)) ctx E fun _ => True := by
  have hdeclare (environment : Environment) (name : String) (value : Value) (kind : Mutability)
      (p : Position) (cause : RuntimeError)
      (hcause : environment.declare name value kind p = .error cause) :
      ¬ bad (.error (.runtime cause)) :=
    h.not_bad (environment.unreserved_declare name value kind p cause hcause)
  exact {
    toEvalRules := h.evalRules hcall
    declaration := fun _ _ => (h.check (unreserved_checkDeclared _ _ _ _)).bind fun _ =>
      avoids_declare (hdeclare · _ _ _ _) fun _ _ => id
    target := fun _ => Action.avoids_environment.bind fun environment =>
      h.check (environment.unreserved_checkTarget _ _ _)
    assignment := fun _ _ => avoids_declare (hdeclare · _ _ _ _) fun _ _ => id
    function := fun {definition} _ hall =>
      avoids_define (fun functions cause hcause =>
          h.not_bad (functions.unreserved_declare definition cause hcause))
        fun _ _ hstate => hstate.declare hall
    loop := fun _ _ _ hround => hround.loop h.exhausted _ }

theorem functionRun (h : Excludes bad E) {ctx : Context}
    (hcall : ∀ name args p, (ctx.call name args p).Avoids bad (Declared E)) {f : Function}
    (hf : f.All E fun _ => True) (frame : Environment) (p : Position) :
    (f.run ctx frame p).Avoids bad (Declared E) := by
  have hbody := (h.runRules hcall).runAll f.body hf.body
  refine (hbody.within frame (fun _ => id) fun _ _ _ => id).bind fun flow => ?_
  exact (h.check (unreserved_checkDeclared _ _ _ _)).bind fun _ => Action.avoids_pure _

/-- The induction is on the calls that may be nested. -/
theorem invoke (h : Excludes bad E) (config : Config) (rounds calls : Nat) (name : String)
    (args : List Value) (p : Position) :
    (invoke config rounds calls name args p).Avoids bad (Declared E) := by
  have hdispatch {body : Function → Environment → Position → Action Value}
      (hbody : ∀ f : Function, f.All E (fun _ => True) →
        ∀ frame p, (body f frame p).Avoids bad (Declared E)) (name : String) (args : List Value)
      (p : Position) : (Calling.dispatch config body name args p).Avoids bad (Declared E) :=
    Calling.avoids_dispatch h.builtin (fun _ _ => h.not_bad id)
      (fun f args p environment cause hcause =>
        h.not_bad (f.unreserved_frame args p environment cause hcause))
      (fun _ _ => h.not_bad id)
      (fun _ name f hstate hf _ => hbody f (hstate name f hf)) name args p
  induction calls generalizing name args p with
  | zero => exact hdispatch (fun _ _ _ _ => h.fail id) name args p
  | succ calls ih => exact hdispatch (fun f hf => h.functionRun ih hf) name args p

end Excludes

end Arrow
