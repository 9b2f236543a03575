import Arrow.Proofs.Evaluation.Moments
import Mathlib.Data.List.Infix

/-!
# Where the statements of a run stand

A statement occurs in another one if it stands in it and not in the body of a function that is
declared there. The statements that run as a part, up to the next call, occur in the part
(`Moment.has_of_reflTransGen`).
-/

namespace Arrow

namespace Statement

/-- The statements that stand directly in a statement. A function that is declared has none. -/
def children : Statement → List Statement
  | declaration .. => []
  | assignment .. => []
  | function _ => []
  | returnValue .. => []
  | expression .. => []
  | conditional branches otherwise _ => branches.flatMap (·.body) ++ otherwise.getD []
  | whileLoop _ body _ => body
  | forLoop init _ update body _ => init :: update :: body

theorem sizeOf_lt_of_mem_children {outer child : Statement} (h : child ∈ outer.children) :
    sizeOf child < sizeOf outer := by
  cases outer with
  | conditional branches otherwise p =>
    simp only [children, List.mem_append, List.mem_flatMap] at h
    rw [conditional.sizeOf_spec]
    rcases h with ⟨⟨condition, body⟩, hbranch, hchild⟩ | hchild
    · have hbody := List.sizeOf_lt_of_mem hbranch
      rw [Branch.mk.sizeOf_spec] at hbody
      have hlt : sizeOf child < sizeOf body := List.sizeOf_lt_of_mem hchild
      omega
    · cases otherwise with
      | none => exact nomatch hchild
      | some body =>
        have hlt : sizeOf child < sizeOf body := List.sizeOf_lt_of_mem hchild
        rw [Option.some.sizeOf_spec]
        omega
  | whileLoop condition body p =>
    have hlt : sizeOf child < sizeOf body := List.sizeOf_lt_of_mem h
    rw [whileLoop.sizeOf_spec]
    omega
  | forLoop init condition update body p =>
    simp only [children, List.mem_cons] at h
    rw [forLoop.sizeOf_spec]
    rcases h with rfl | rfl | hchild
    · omega
    · omega
    · have hlt := List.sizeOf_lt_of_mem hchild
      omega
  | _ => exact nomatch h

/-- What holds of a statement if it holds of those that stand directly in it holds of them all. -/
theorem inductionOn {P : Statement → Prop}
    (step : ∀ outer : Statement, (∀ child ∈ outer.children, P child) → P outer)
    (statement : Statement) : P statement :=
  step statement fun child _ => inductionOn step child
termination_by sizeOf statement
decreasing_by exact sizeOf_lt_of_mem_children ‹_›

/-- The first statement is the second or stands in it, in no function that is declared there. -/
inductive OccursIn (inner : Statement) : Statement → Prop
  | self : inner.OccursIn inner
  | child {outer child : Statement} (hchild : child ∈ outer.children) (h : inner.OccursIn child) :
    inner.OccursIn outer

end Statement

namespace Part

/-- The statements that stand directly in a part. -/
def statementsIn : Part → List Statement
  | program whole => whole.body
  | outermost body => body
  | statements body => body
  | statement single => [single]
  | branches cases => cases.flatMap (·.body)
  | loop _ _ body => body
  | exprs _ => []
  | expr _ => []
  | call _ _ _ => []

/-- The statement occurs in one of those that stand in the part. -/
def Has (part : Part) (inner : Statement) : Prop :=
  ∃ outer ∈ part.statementsIn, inner.OccursIn outer

variable {part part' : Part} {inner : Statement}

theorem Has.mono (h : part.Has inner) (hsubset : part.statementsIn ⊆ part'.statementsIn) :
    part'.Has inner := by
  obtain ⟨outer, houter, hinner⟩ := h
  exact ⟨outer, hsubset houter, hinner⟩

/-- What stands in a part that stands in a statement occurs in that. -/
theorem Has.statement {outer : Statement} (h : part.Has inner)
    (hsubset : part.statementsIn ⊆ outer.children) : (Part.statement outer).Has inner := by
  obtain ⟨child, hchild, hinner⟩ := h
  exact ⟨outer, List.mem_singleton_self outer, .child (hsubset hchild) hinner⟩

theorem Has.of_first {rounds : Nat} (hfirst : part.first? rounds = some part')
    (h : part'.Has inner) : part.Has inner := by
  match part, part', hfirst with
  | program _, _, rfl => exact h
  | outermost (first :: rest), _, rfl => exact h.mono (by simp [statementsIn])
  | statements (first :: rest), _, rfl => exact h.mono (by simp [statementsIn])
  | .statement (.conditional cases _ _), _, rfl =>
    exact h.statement (by simp [statementsIn, Statement.children])
  | .statement (.whileLoop _ _ _), _, rfl => exact h.statement (List.Subset.refl _)
  | .statement (.forLoop init _ _ _ _), _, rfl =>
    exact h.statement (by simp [statementsIn, Statement.children])
  | .statement (.declaration ..), _, rfl => exact nomatch h
  | .statement (.returnValue ..), _, rfl => exact nomatch h
  | .statement (.expression ..), _, rfl => exact nomatch h
  | branches (⟨_, _⟩ :: _), _, rfl => exact nomatch h
  | loop (_ + 1) _ _, _, rfl => exact nomatch h
  | exprs (_ :: _), _, rfl => exact nomatch h
  | expr _, _, rfl => exact nomatch h

end Part

/-! ## Moments of one call -/

namespace Moment

variable {σ : Type} [Console σ] {config : Config} {rounds : Nat} {m m' : Moment σ}
  {inner : Statement}

/-- How a moment leads to one that follows it in the same call. -/
def LeadsWithin (config : Config) (rounds : Nat) (m m' : Moment σ) : Prop :=
  Leads config rounds m m' ∧ m'.callers = m.callers

theorem Leads.callers_suffix (h : Leads config rounds m m') : m.callers <:+ m'.callers := by
  cases h with
  | body h hbuiltin hfind hframe hdepth hcalls => exact List.suffix_cons _ _
  | _ => exact List.suffix_rfl

theorem callers_suffix_of_reflTransGen (h : Relation.ReflTransGen (Leads config rounds) m m') :
    m.callers <:+ m'.callers := by
  induction h with
  | refl => exact List.suffix_rfl
  | tail _ hleads ih => exact ih.trans hleads.callers_suffix

/-- Between two moments of the same call without a caller more there are only such moments. -/
theorem reflTransGen_leadsWithin (h : Relation.ReflTransGen (Leads config rounds) m m')
    (hcallers : m'.callers = m.callers) :
    Relation.ReflTransGen (LeadsWithin config rounds) m m' := by
  induction h with
  | refl => exact .refl
  | @tail middle last hpath hleads ih =>
    have hmiddle : middle.callers = m.callers :=
      (hcallers ▸ hleads.callers_suffix).eq_of_length_le
        (callers_suffix_of_reflTransGen hpath).length_le
    exact (ih hmiddle).tail ⟨hleads, hcallers.trans hmiddle.symm⟩

theorem Leads.has (h : Leads config rounds m m') (hcallers : m'.callers = m.callers)
    (hinner : m'.part.Has inner) : m.part.Has inner := by
  obtain ⟨part, state, console, calls, callers⟩ := m
  cases h with
  | first h => exact hinner.of_first h
  | entryPoint h hbody hmain hparams => exact nomatch hinner
  | outermost h hfirst =>
    cases h
    exact hinner.mono (List.subset_cons_self _ _)
  | statements h hfirst =>
    cases h
    exact hinner.mono (List.subset_cons_self _ _)
  | assignment h htarget => exact nomatch hinner
  | otherwise h hbranches =>
    cases h
    exact hinner.statement (List.subset_append_right _ _)
  | forLoop h hinit =>
    cases h
    refine hinner.statement fun child hchild => ?_
    simp only [later, Part.statementsIn, List.mem_append, List.mem_singleton] at hchild
    simp only [Statement.children, List.mem_cons]
    tauto
  | branch h hcondition hvalue =>
    cases h
    exact hinner.mono (List.subset_append_left _ _)
  | branches h hcondition hvalue =>
    cases h
    exact hinner.mono (List.subset_append_right _ _)
  | round h hcondition hvalue =>
    cases h
    exact hinner
  | loop h hcondition hvalue hbody =>
    cases h
    exact hinner
  | exprs h hfirst => exact nomatch hinner
  | arguments h hargs => exact nomatch hinner
  | body h hbuiltin hfind hframe hdepth hcalls => exact absurd hcallers (List.cons_ne_self _ _)

theorem callers_eq_of_reflTransGen (h : Relation.ReflTransGen (LeadsWithin config rounds) m m') :
    m'.callers = m.callers := by
  induction h with
  | refl => rfl
  | tail _ hleads ih => exact hleads.2.trans ih

/-- Up to the next call only statements run that occur in the part. -/
theorem has_of_reflTransGen (h : Relation.ReflTransGen (LeadsWithin config rounds) m m')
    (hinner : m'.part.Has inner) : m.part.Has inner := by
  induction h with
  | refl => exact hinner
  | tail _ hleads ih => exact ih (hleads.1.has hleads.2 hinner)

end Moment

end Arrow
