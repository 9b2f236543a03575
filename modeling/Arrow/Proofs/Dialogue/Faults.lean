import Arrow.Dialogue.Console
import Arrow.Error

/-!
# Dialogues with failing consoles

The log of a dialogue is the list of the operations that a console performs in it. A dialogue
surrenders if it ends at once, with the reason, when a request fails. Held with a console that
fails, such a dialogue makes the same operations up to the first that fails, and no other
(`Surrenders.log_of_fault`); where none fails it is held as with the console underneath
(`Spares.conduct`).
-/

namespace Arrow

/-- A write or a read, with the position of the call that asks for it. -/
inductive Operation where
  | write (text : String) (caller : Option Position)
  | read (caller : Option Position)
deriving DecidableEq

namespace Operation

def isWrite : Operation → Bool
  | write _ _ => true
  | read _ => false

def caller : Operation → Option Position
  | write _ p => p
  | read p => p

/-- The text that the operation writes. -/
def text : Operation → String
  | write text _ => text
  | read _ => ""

/-- The console after the operation. -/
def apply {σ : Type} [Console σ] : Operation → σ → σ
  | write text _, console => (Console.write text console).2
  | read _, console => (Console.readLine console).2

/-- The console after the operations. -/
def applyAll {σ : Type} [Console σ] (ops : List Operation) (console : σ) : σ :=
  ops.foldl (fun console op => op.apply console) console

section

variable {σ : Type} [Console σ]

@[simp]
theorem applyAll_nil (console : σ) : applyAll [] console = console := rfl

@[simp]
theorem applyAll_cons (op : Operation) (ops : List Operation) (console : σ) :
    applyAll (op :: ops) console = applyAll ops (op.apply console) := rfl

@[simp]
theorem applyAll_append (ops ops' : List Operation) (console : σ) :
    applyAll (ops ++ ops') console = applyAll ops' (applyAll ops console) :=
  List.foldl_append

end

end Operation

namespace Dialogue

variable {σ α β : Type} [Console σ]

/-- The operations that the console performs in the dialogue, in their order. -/
def log : Dialogue α → σ → List Operation
  | done _, _ => []
  | write text caller next, console =>
    .write text caller ::
      (next (Console.write text console).1).log (Console.write text console).2
  | read caller next, console =>
    .read caller :: (next (Console.readLine console).1).log (Console.readLine console).2

theorem log_bind (d : Dialogue α) (f : α → Dialogue β) (console : σ) :
    (d >>= f).log console =
      d.log console ++ (f (d.conduct console).1).log (d.conduct console).2 := by
  induction d generalizing console with
  | done _ => rfl
  | write text caller next ih => exact congrArg (_ :: ·) (ih _ _)
  | read caller next ih => exact congrArg (_ :: ·) (ih _ _)

/-- A dialogue changes the console by its operations alone. -/
theorem conduct_snd (d : Dialogue α) (console : σ) :
    (d.conduct console).2 = Operation.applyAll (d.log console) console := by
  induction d generalizing console with
  | done _ => rfl
  | write text caller next ih => exact ih _ _
  | read caller next ih => exact ih _ _

end Dialogue

/-! ## Consoles that keep a transcript -/

namespace Transcript

theorem applyAll_eq (ops : List Operation) (lines : List String) (output : String) :
    Operation.applyAll ops (⟨lines, output⟩ : Transcript) =
      ⟨lines.drop (ops.countP (!·.isWrite)), output ++ String.join (ops.map (·.text))⟩ := by
  induction ops generalizing lines output with
  | nil => simp
  | cons op ops ih =>
    cases op with
    | write text caller =>
      simp [Operation.apply, Console.write, ih, Operation.isWrite, Operation.text,
        String.append_assoc]
    | read caller =>
      cases lines <;>
        simp [Operation.apply, Console.readLine, ih, Operation.isWrite, Operation.text]

end Transcript

/-! ## Consoles that fail -/

namespace Unreliable

variable {σ α : Type}

/-- The failure that is planned for the writes, or for the reads. -/
def fault? (console : Unreliable σ) (atWrite : Bool) : Option Fault :=
  if atWrite then console.writeFault else console.readFault

/-- How many writes, or how many reads, have been asked for. -/
def asked (console : Unreliable σ) (atWrite : Bool) : Nat :=
  if atWrite then console.writes else console.reads

/-- The reason for which the console fails at the operation, if it does. -/
def reason? (console : Unreliable σ) (op : Operation) : Option String :=
  Fault.reason? (console.fault? op.isWrite) (console.asked op.isWrite)

variable [Console σ]

/-- The console fails at none of the operations, one after the other. -/
def Spares (console : Unreliable σ) : List Operation → Prop
  | [] => True
  | op :: ops => console.reason? op = none ∧ Spares (op.apply console) ops

section

variable {u : Unreliable σ}

theorem fault?_apply (op : Operation) (atWrite : Bool) :
    (op.apply u).fault? atWrite = u.fault? atWrite := by
  cases op <;> simp only [Operation.apply, Console.write, Console.readLine] <;> split <;> rfl

theorem asked_apply (op : Operation) (atWrite : Bool) :
    (op.apply u).asked atWrite = u.asked atWrite + if op.isWrite = atWrite then 1 else 0 := by
  cases op <;> cases atWrite <;>
    simp only [Operation.apply, Console.write, Console.readLine] <;> split <;> rfl

theorem fault?_applyAll (ops : List Operation) (atWrite : Bool) :
    (Operation.applyAll ops u).fault? atWrite = u.fault? atWrite := by
  induction ops generalizing u with
  | nil => rfl
  | cons op ops ih => rw [Operation.applyAll_cons, ih, fault?_apply]

theorem asked_applyAll (ops : List Operation) (atWrite : Bool) :
    (Operation.applyAll ops u).asked atWrite =
      u.asked atWrite + ops.countP (·.isWrite = atWrite) := by
  induction ops generalizing u with
  | nil => rfl
  | cons op ops ih =>
    rw [Operation.applyAll_cons, ih, asked_apply, List.countP_cons]
    simp only [decide_eq_true_eq]
    omega

/-- An operation that fails has no effect underneath. -/
theorem console_apply (op : Operation) :
    (op.apply u).console = if u.reason? op = none then op.apply u.console else u.console := by
  cases op with
  | write text caller =>
    change (Console.write text u).2.console =
      if Fault.reason? u.writeFault u.writes = none then _ else _
    simp only [Console.write]
    split <;> simp_all [Operation.apply]
  | read caller =>
    change (Console.readLine u).2.console =
      if Fault.reason? u.readFault u.reads = none then _ else _
    simp only [Console.readLine]
    split <;> simp_all [Operation.apply]

theorem write_fst (text : String) (caller : Option Position) :
    (Console.write text u).1 =
      (u.reason? (.write text caller)).elim (Console.write text u.console).1 .error := by
  change _ = (Fault.reason? u.writeFault u.writes).elim _ _
  simp only [Console.write]
  split <;> simp_all

theorem readLine_fst (caller : Option Position) :
    (Console.readLine u).1 =
      (u.reason? (.read caller)).elim (Console.readLine u.console).1 .error := by
  change _ = (Fault.reason? u.readFault u.reads).elim _ _
  simp only [Console.readLine]
  split <;> simp_all

theorem Spares.console_applyAll {ops : List Operation} (h : u.Spares ops) :
    (Operation.applyAll ops u).console = Operation.applyAll ops u.console := by
  induction ops generalizing u with
  | nil => rfl
  | cons op ops ih =>
    rw [Operation.applyAll_cons, Operation.applyAll_cons, ih h.2, console_apply, if_pos h.1]

theorem write_of_reason?_eq_none {text : String} {caller : Option Position}
    (h : u.reason? (.write text caller) = none) :
    (Console.write text u).1 = (Console.write text u.console).1 ∧
      (Console.write text u).2.console = (Console.write text u.console).2 := by
  refine ⟨?_, (console_apply (.write text caller)).trans (if_pos h)⟩
  rw [write_fst text caller, h, Option.elim_none]

theorem readLine_of_reason?_eq_none {caller : Option Position}
    (h : u.reason? (.read caller) = none) :
    (Console.readLine u).1 = (Console.readLine u.console).1 ∧
      (Console.readLine u).2.console = (Console.readLine u.console).2 := by
  refine ⟨?_, (console_apply (.read caller)).trans (if_pos h)⟩
  rw [readLine_fst caller, h, Option.elim_none]

/-- A console that fails at no operation of a dialogue is as good as the one underneath. -/
theorem Spares.conduct {d : Dialogue α} (h : u.Spares (d.log u.console)) :
    d.log u = d.log u.console ∧ (d.conduct u).1 = (d.conduct u.console).1 := by
  induction d generalizing u with
  | done value => exact ⟨rfl, rfl⟩
  | write text caller next ih =>
    obtain ⟨hanswer, hconsole⟩ := write_of_reason?_eq_none h.1
    have hrest : (Console.write text u).2.Spares _ := h.2
    rw [← hconsole, ← hanswer] at hrest
    obtain ⟨hlog, hresult⟩ := ih _ hrest
    rw [hconsole, hanswer] at hlog hresult
    simp only [Dialogue.log, Dialogue.conduct, hanswer, hlog, hresult, and_self]
  | read caller next ih =>
    obtain ⟨hanswer, hconsole⟩ := readLine_of_reason?_eq_none h.1
    have hrest : (Console.readLine u).2.Spares _ := h.2
    rw [← hconsole, ← hanswer] at hrest
    obtain ⟨hlog, hresult⟩ := ih _ hrest
    rw [hconsole, hanswer] at hlog hresult
    simp only [Dialogue.log, Dialogue.conduct, hanswer, hlog, hresult, and_self]

end

end Unreliable

/-! ## Dialogues that end with the first failure -/

namespace Dialogue

variable {α β γ : Type}

/--
When a request for the call at `caller` fails, the dialogue ends at once, for a reason that names
the failure and the position of the call.
-/
def GivesUp (ends : RuntimeError → α → Prop) (caller : Option Position)
    (next : Except String γ → Dialogue α) : Prop :=
  ∃ p, caller = some p ∧ ∀ reason, ∃ value,
    next (.error reason) = done value ∧ ends (.io reason p) value

/-- A request that fails is the last one of the dialogue. -/
def Surrenders (ends : RuntimeError → α → Prop) : Dialogue α → Prop
  | done _ => True
  | write _ caller next => GivesUp ends caller next ∧ ∀ answer, (next answer).Surrenders ends
  | read caller next => GivesUp ends caller next ∧ ∀ answer, (next answer).Surrenders ends

variable {ends : RuntimeError → α → Prop}

theorem GivesUp.bind {ends' : RuntimeError → β → Prop} {caller : Option Position}
    {next : Except String γ → Dialogue α} {f : α → Dialogue β} (h : GivesUp ends caller next)
    (hends : ∀ cause value, ends cause value → ∃ other, f value = done other ∧ ends' cause other) :
    GivesUp ends' caller fun answer => next answer >>= f := by
  obtain ⟨p, hcaller, hfailed⟩ := h
  refine ⟨p, hcaller, fun reason => ?_⟩
  obtain ⟨value, hnext, hvalue⟩ := hfailed reason
  obtain ⟨other, hother, hends'⟩ := hends _ value hvalue
  refine ⟨other, ?_, hends'⟩
  show next (.error reason) >>= f = done other
  rw [hnext, done_bind, hother]

theorem Surrenders.bind {ends' : RuntimeError → β → Prop} {d : Dialogue α} {f : α → Dialogue β}
    (hd : d.Surrenders ends) (hf : ∀ value, (f value).Surrenders ends')
    (hends : ∀ cause value, ends cause value → ∃ other, f value = done other ∧ ends' cause other) :
    (d >>= f).Surrenders ends' := by
  induction d with
  | done value => exact hf value
  | write text caller next ih => exact ⟨hd.1.bind hends, fun answer => ih answer (hd.2 answer)⟩
  | read caller next ih => exact ⟨hd.1.bind hends, fun answer => ih answer (hd.2 answer)⟩

variable {σ : Type} [Console σ]

/--
If the console underneath performs `before` and then `op`, and the failing console fails at `op`
first, then it is asked for `before` and `op` and nothing else, and the dialogue ends for this
reason.
-/
theorem Surrenders.fault {d : Dialogue α} {u : Unreliable σ} {before rest : List Operation}
    {op : Operation} {reason : String} (h : d.Surrenders ends)
    (hlog : d.log u.console = before ++ op :: rest) (hbefore : u.Spares before)
    (hop : (Operation.applyAll before u).reason? op = some reason) :
    d.log u = before ++ [op] ∧
      ∃ p, op.caller = some p ∧ ends (.io reason p) (d.conduct u).1 := by
  induction d generalizing u before with
  | done value => simp [log] at hlog
  | write text caller next ih =>
    rcases before with _ | ⟨first, before⟩
    · obtain ⟨rfl, -⟩ := List.cons.inj hlog
      obtain ⟨p, hcaller, hfailed⟩ := h.1
      obtain ⟨value, hnext, hvalue⟩ := hfailed reason
      have hanswer : (Console.write text u).1 = .error reason := by
        rw [Unreliable.write_fst text caller, show u.reason? _ = _ from hop, Option.elim_some]
      simp only [log, conduct, hanswer, hnext]
      exact ⟨rfl, p, hcaller, hvalue⟩
    · obtain ⟨rfl, hrest⟩ := List.cons.inj hlog
      obtain ⟨hanswer, hconsole⟩ := Unreliable.write_of_reason?_eq_none hbefore.1
      rw [← hconsole, ← hanswer] at hrest
      obtain ⟨hlog', hends⟩ := ih _ (h.2 _) hrest hbefore.2 hop
      exact ⟨congrArg (_ :: ·) hlog', hends⟩
  | read caller next ih =>
    rcases before with _ | ⟨first, before⟩
    · obtain ⟨rfl, -⟩ := List.cons.inj hlog
      obtain ⟨p, hcaller, hfailed⟩ := h.1
      obtain ⟨value, hnext, hvalue⟩ := hfailed reason
      have hanswer : (Console.readLine u).1 = .error reason := by
        rw [Unreliable.readLine_fst caller, show u.reason? _ = _ from hop, Option.elim_some]
      simp only [log, conduct, hanswer, hnext]
      exact ⟨rfl, p, hcaller, hvalue⟩
    · obtain ⟨rfl, hrest⟩ := List.cons.inj hlog
      obtain ⟨hanswer, hconsole⟩ := Unreliable.readLine_of_reason?_eq_none hbefore.1
      rw [← hconsole, ← hanswer] at hrest
      obtain ⟨hlog', hends⟩ := ih _ (h.2 _) hrest hbefore.2 hop
      exact ⟨congrArg (_ :: ·) hlog', hends⟩

end Dialogue

/-- More than `n` elements of the kind: the one with number `n` stands somewhere. -/
theorem exists_eq_append_cons_of_lt_countP {α : Type} {p : α → Bool} {l : List α} {n : Nat}
    (h : n < l.countP p) :
    ∃ before a rest, l = before ++ a :: rest ∧ p a = true ∧ before.countP p = n := by
  induction l generalizing n with
  | nil => simp at h
  | cons a l ih =>
    rw [List.countP_cons] at h
    by_cases ha : p a = true
    · cases n with
      | zero => exact ⟨[], a, l, rfl, ha, rfl⟩
      | succ n =>
        rw [if_pos ha] at h
        obtain ⟨before, b, rest, rfl, hb, hbefore⟩ := ih (Nat.lt_of_succ_lt_succ h)
        exact ⟨a :: before, b, rest, rfl, hb, by rw [List.countP_cons_of_pos ha, hbefore]⟩
    · rw [if_neg ha] at h
      obtain ⟨before, b, rest, rfl, hb, hbefore⟩ := ih h
      exact ⟨a :: before, b, rest, rfl, hb, by rw [List.countP_cons_of_neg ha, hbefore]⟩

/-! ## One planned failure -/

namespace Unreliable

variable {σ α : Type}

/-- A console that fails once, in writing or in reading. -/
def failing (atWrite : Bool) (fault : Fault) (console : σ) : Unreliable σ :=
  ⟨console, if atWrite then some fault else none, if atWrite then none else some fault, 0, 0⟩

theorem fault?_failing {atWrite : Bool} {fault : Fault} {console : σ} :
    (failing atWrite fault console).fault? atWrite = some fault := by
  cases atWrite <;> rfl

theorem fault?_failing_not {atWrite : Bool} {fault : Fault} {console : σ} :
    (failing atWrite fault console).fault? (!atWrite) = none := by
  cases atWrite <;> rfl

theorem asked_failing {atWrite : Bool} {fault : Fault} {console : σ} (other : Bool) :
    (failing atWrite fault console).asked other = 0 := by
  cases other <;> rfl

/-- Of the writes, or of the reads, exactly the one with the number of the fault fails. -/
theorem reason?_of_fault? {u : Unreliable σ} {atWrite : Bool} {fault : Fault}
    (hfault : u.fault? atWrite = some fault) (hother : u.fault? (!atWrite) = none)
    (op : Operation) :
    u.reason? op = if op.isWrite = atWrite ∧ fault.index = u.asked atWrite then some fault.reason
      else none := by
  unfold reason?
  by_cases h : op.isWrite = atWrite
  · rw [h, hfault]
    by_cases hindex : fault.index = u.asked atWrite <;> simp [Fault.reason?, Option.filter, hindex]
  · rw [if_neg fun hboth => h hboth.1, Bool.eq_not_of_ne h, hother]
    rfl

variable [Console σ]

theorem spares_of_countP_le {u : Unreliable σ} {atWrite : Bool} {fault : Fault}
    (hfault : u.fault? atWrite = some fault) (hother : u.fault? (!atWrite) = none)
    {ops : List Operation}
    (h : u.asked atWrite + ops.countP (·.isWrite = atWrite) ≤ fault.index) : u.Spares ops := by
  induction ops generalizing u with
  | nil => trivial
  | cons op ops ih =>
    rw [List.countP_cons] at h
    refine ⟨?_, ih ((fault?_apply op _).trans hfault) ((fault?_apply op _).trans hother) ?_⟩
    · rw [reason?_of_fault? hfault hother, if_neg]
      rintro ⟨hop, hindex⟩
      rw [if_pos (by simpa using hop)] at h
      omega
    · rw [asked_apply]
      simp only [decide_eq_true_eq] at h
      omega

end Unreliable

namespace Dialogue

variable {σ α : Type} [Console σ] {d : Dialogue α} {atWrite : Bool} {fault : Fault} {console : σ}

/-- A failure that comes after the last operation of its kind changes nothing. -/
theorem conduct_failing_of_countP_le
    (h : (d.log console).countP (·.isWrite = atWrite) ≤ fault.index) :
    d.log (Unreliable.failing atWrite fault console) = d.log console ∧
      (d.conduct (Unreliable.failing atWrite fault console)).1 = (d.conduct console).1 ∧
      (d.conduct (Unreliable.failing atWrite fault console)).2.console = (d.conduct console).2 := by
  have hspares : (Unreliable.failing atWrite fault console).Spares (d.log console) :=
    Unreliable.spares_of_countP_le Unreliable.fault?_failing Unreliable.fault?_failing_not
      (by rwa [Unreliable.asked_failing, Nat.zero_add])
  obtain ⟨hlog, hresult⟩ := Unreliable.Spares.conduct hspares
  refine ⟨hlog, hresult, ?_⟩
  rw [conduct_snd, hlog, conduct_snd]
  exact hspares.console_applyAll

/-- A failure that comes before is met by a dialogue that surrenders, and nothing comes after it. -/
theorem Surrenders.conduct_failing_of_lt_countP {ends : RuntimeError → α → Prop}
    (hd : d.Surrenders ends)
    (h : fault.index < (d.log console).countP (·.isWrite = atWrite)) :
    ∃ before op rest p, d.log console = before ++ op :: rest ∧ op.isWrite = atWrite ∧
      before.countP (·.isWrite = atWrite) = fault.index ∧ op.caller = some p ∧
      d.log (Unreliable.failing atWrite fault console) = before ++ [op] ∧
      ends (.io fault.reason p) (d.conduct (Unreliable.failing atWrite fault console)).1 ∧
      (d.conduct (Unreliable.failing atWrite fault console)).2.console =
        Operation.applyAll before console := by
  obtain ⟨before, op, rest, hsplit, hop, hcount⟩ := exists_eq_append_cons_of_lt_countP h
  rw [decide_eq_true_eq] at hop
  have hspares : (Unreliable.failing atWrite fault console).Spares before :=
    Unreliable.spares_of_countP_le Unreliable.fault?_failing Unreliable.fault?_failing_not
      (Nat.le_of_eq (by rw [Unreliable.asked_failing, Nat.zero_add, hcount]))
  have hfails : (Operation.applyAll before (Unreliable.failing atWrite fault console)).reason? op =
      some fault.reason := by
    rw [Unreliable.reason?_of_fault?
      ((Unreliable.fault?_applyAll before _).trans Unreliable.fault?_failing)
      ((Unreliable.fault?_applyAll before _).trans Unreliable.fault?_failing_not),
      Unreliable.asked_applyAll, Unreliable.asked_failing, hcount, Nat.zero_add,
      if_pos ⟨hop, rfl⟩]
  obtain ⟨hlog, p, hcaller, hends⟩ := hd.fault hsplit hspares hfails
  refine ⟨before, op, rest, p, hsplit, hop, hcount, hcaller, hlog, hends, ?_⟩
  rw [conduct_snd, hlog, Operation.applyAll_append, Operation.applyAll_cons, Operation.applyAll_nil,
    Unreliable.console_apply, if_neg (by rw [hfails]; exact nofun), hspares.console_applyAll]
  rfl

end Dialogue

end Arrow
