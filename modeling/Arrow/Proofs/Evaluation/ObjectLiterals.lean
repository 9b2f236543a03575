import Arrow.Proofs.Evaluation.Moments
import Arrow.Proofs.Value.RepeatedKeys

/-!
# Object literals

The fields of an object literal are evaluated one after another, those included whose value a later
field replaces, until one of them fails. If none does, the object keeps the last value of each key
in the place of the first (`object_literal_keeps_last`).
-/

namespace Arrow

variable {σ : Type} [Console σ]

theorem Action.conduct_bind {α β : Type} (action : Action α) (next : α → Action β) (state : State)
    (console : σ) :
    ((action >>= next).perform state).conduct console =
      match (action.perform state).conduct console with
      | ((.ok value, after), left) => ((next value).perform after).conduct left
      | ((.error halt, after), left) => ((.error halt, after), left) := by
  rw [perform_bind, Dialogue.conduct_bind]
  rcases (action.perform state).conduct console with ⟨⟨_ | _, _⟩, _⟩ <;> rfl

namespace Expr

/--
Evaluated one after another, each from the state and with the console that the one before has left,
the expressions have the values.
-/
inductive InTurn (call : Calling) : List Expr → State → σ → List Value → State → σ → Prop
  | nil (state : State) (console : σ) : InTurn call [] state console [] state console
  | cons {expr : Expr} {exprs : List Expr} {value : Value} {values : List Value}
    {state mid after : State} {console held left : σ}
    (hfirst : ((expr.eval call).perform state).conduct console = ((.ok value, mid), held))
    (hrest : InTurn call exprs mid held values after left) :
    InTurn call (expr :: exprs) state console (value :: values) after left

variable {call : Calling} {exprs : List Expr} {values : List Value} {state after : State}
  {console left : σ} {halt : Halt}

theorem InTurn.length_eq (h : InTurn call exprs state console values after left) :
    values.length = exprs.length := by
  induction h with
  | nil => rfl
  | cons _ _ ih => exact congrArg (· + 1) ih

theorem evalAll_eq_ok_iff :
    ((evalAll call exprs).perform state).conduct console = ((.ok values, after), left) ↔
      InTurn call exprs state console values after left := by
  induction exprs generalizing state console values with
  | nil =>
    constructor
    · intro h
      cases h
      exact .nil _ _
    · rintro ⟨⟩
      rfl
  | cons expr exprs ih =>
    rw [evalAll, Action.conduct_bind]
    constructor
    · intro h
      split at h
      case h_2 => cases h
      case h_1 value mid held hfirst =>
        rw [Action.conduct_bind] at h
        split at h
        case h_2 => cases h
        case h_1 rest mid' held' hrest =>
          cases h
          exact .cons hfirst (ih.1 hrest)
    · rintro (_ | ⟨hfirst, hrest⟩)
      rw [hfirst]
      dsimp only
      rw [Action.conduct_bind, ih.2 hrest]
      rfl

/-- Some expression has failed when those in front of it had been evaluated. -/
def FailsInTurn (call : Calling) (exprs : List Expr) (state : State) (console : σ) (halt : Halt)
    (after : State) (left : σ) : Prop :=
  ∃ front failing back values mid held, exprs = front ++ failing :: back ∧
    InTurn call front state console values mid held ∧
    ((failing.eval call).perform mid).conduct held = ((.error halt, after), left)

theorem evalAll_eq_error_iff :
    ((evalAll call exprs).perform state).conduct console = ((.error halt, after), left) ↔
      FailsInTurn call exprs state console halt after left := by
  induction exprs generalizing state console with
  | nil =>
    refine iff_of_false nofun ?_
    rintro ⟨front, failing, back, _, _, _, h, -⟩
    simp at h
  | cons expr exprs ih =>
    rw [evalAll, Action.conduct_bind]
    constructor
    · intro h
      split at h
      case h_2 halt' mid held hfirst =>
        cases h
        exact ⟨[], expr, exprs, [], state, console, rfl, .nil state console, hfirst⟩
      case h_1 value mid held hfirst =>
        rw [Action.conduct_bind] at h
        split at h
        case h_1 => cases h
        case h_2 halt' mid' held' hrest =>
          cases h
          obtain ⟨front, failing, back, values, mid', held', rfl, hfront, hfails⟩ := ih.1 hrest
          exact ⟨expr :: front, failing, back, value :: values, mid', held', rfl,
            .cons hfirst hfront, hfails⟩
    · rintro ⟨front, failing, back, values, mid, held, hsplit, hfront, hfails⟩
      cases hfront with
      | nil =>
        obtain ⟨rfl, rfl⟩ := List.cons.inj hsplit
        rw [hfails]
      | cons hfirst hrest =>
        obtain ⟨rfl, rfl⟩ := List.cons.inj hsplit
        rw [hfirst]
        dsimp only
        rw [Action.conduct_bind, ih.2 ⟨_, failing, back, _, _, _, rfl, hrest, hfails⟩]

/-! ## Objects -/

/-- The loop over the fields of a literal. -/
theorem eval_object (call : Calling) (fields : List (String × Expr)) (p : Position) :
    (object fields p).eval call = (do
      let mut made := []
      for (key, expr) in fields do
        let value ← expr.eval call
        made := Value.setField key value made
      return .object made) := by
  show (evalFields call fields >>= fun values => pure (Value.object
    (values.foldl (fun made field => Value.setField field.1 field.2 made) []))) = _
  generalize [] = made
  induction fields generalizing made with
  | nil => rfl
  | cons field fields ih =>
    obtain ⟨key, expr⟩ := field
    simp only [evalFields, List.forIn_cons, bind_assoc, pure_bind, List.foldl_cons]
    exact bind_congr fun value => ih (Value.setField key value made)

theorem conduct_object (call : Calling) (fields : List (String × Expr)) (p : Position)
    (state : State) (console : σ) :
    (((object fields p).eval call).perform state).conduct console =
      match ((evalAll call (fields.map (·.2))).perform state).conduct console with
      | ((.ok values, after), left) =>
        ((.ok (.object (Value.made ((fields.map (·.1)).zip values))), after), left)
      | ((.error halt, after), left) => ((.error halt, after), left) := by
  have hoperands : (object fields p).operands = fields.map (·.2) := rfl
  rw [eval_eq, Action.conduct_bind, hoperands]
  generalize ((evalAll call (fields.map (·.2))).perform state).conduct console = ending
  rcases ending with ⟨⟨_ | _, _⟩, _⟩ <;> rfl

end Expr

/--
An object literal is evaluated like the loop that sets one field after another. If all its fields
have values, taken in turn, then it is the object that keeps the last one of each key; and it has a
value only then. It fails exactly if a field fails when those in front of it have been evaluated, in
the same way and at once.
-/
theorem object_literal_keeps_last (call : Calling) (fields : List (String × Expr)) (p : Position)
    (state : State) (console : σ) :
    let literal := (((Expr.object fields p).eval call).perform state).conduct console
    ((Expr.object fields p).eval call = do
      let mut made := []
      for (key, expr) in fields do
        let value ← expr.eval call
        made := Value.setField key value made
      return .object made) ∧
    (∀ values after left, Expr.InTurn call (fields.map (·.2)) state console values after left →
      values.length = fields.length ∧ ∃ made, literal = ((.ok (.object made), after), left) ∧
        Value.KeepsLast ((fields.map (·.1)).zip values) made) ∧
    (∀ value after left, literal = ((.ok value, after), left) →
      ∃ values, Expr.InTurn call (fields.map (·.2)) state console values after left) ∧
    ∀ halt after left, literal = ((.error halt, after), left) ↔
      Expr.FailsInTurn call (fields.map (·.2)) state console halt after left := by
  intro literal
  have hliteral := Expr.conduct_object call fields p state console
  refine ⟨Expr.eval_object call fields p, fun values after left h => ?_,
    fun value after left h => ?_, fun halt after left => ?_⟩
  · rw [Expr.evalAll_eq_ok_iff.2 h] at hliteral
    exact ⟨h.length_eq.trans (List.length_map _), _, hliteral, Value.keepsLast_made _⟩
  · rw [show literal = _ from hliteral] at h
    split at h
    case h_1 values mid held hall =>
      cases h
      exact ⟨values, Expr.evalAll_eq_ok_iff.1 hall⟩
    case h_2 => cases h
  · rw [← Expr.evalAll_eq_error_iff, show literal = _ from hliteral]
    split
    case h_1 values mid held hall =>
      rw [hall]
      exact iff_of_false nofun nofun
    case h_2 halt' mid held hall => simp only [hall, Prod.mk.injEq, Except.error.injEq]

/-- A key comes twice: its first value is printed and then replaced, unless `y` is not bound. -/
theorem object_literal_keeps_last_of_print :
    let call := invoke .standard 0 0
    let text (content : String) : Expr := .literal (.text content) .start
    let print (content : String) : Expr := .call "print" [text content] .start
    let y : Expr := .var "y" .start
    let unbound : Halt := .error (.runtime (.undefinedVariable "y" .start))
    let console : Transcript := ⟨[], ""⟩
    let left : Transcript := ⟨[], "1\n"⟩
    let literal (fields : List (String × Expr)) :=
      (((Expr.object fields .start).eval call).perform .initial).conduct console
    (Expr.InTurn call [print "1", text "2", text "3"] .initial console
        [.null, .text "2", .text "3"] .initial left ∧
      ∃ made, literal [("a", print "1"), ("b", text "2"), ("a", text "3")] =
          ((.ok (.object made), .initial), left) ∧
        made.map (·.1) = ["a", "b"] ∧ ("a", .text "3") ∈ made) ∧
    Expr.FailsInTurn call [print "1", y, print "2"] .initial console unbound .initial left ∧
    literal [("a", print "1"), ("b", y), ("a", print "2")] = ((.error unbound, .initial), left) := by
  intro call text print y unbound console left literal
  have hprint : (((print "1").eval call).perform .initial).conduct console =
      ((.ok .null, .initial), left) := by rfl
  have hturn : Expr.InTurn call [print "1", text "2", text "3"] .initial console
      [.null, .text "2", .text "3"] .initial left :=
    .cons hprint (.cons rfl (.cons rfl (.nil _ _)))
  have hfails : Expr.FailsInTurn call [print "1", y, print "2"] .initial console unbound
      .initial left :=
    ⟨[print "1"], y, [print "2"], _, _, _, rfl, .cons hprint (.nil _ _), rfl⟩
  obtain ⟨-, hmade, -, -⟩ := object_literal_keeps_last call
    [("a", print "1"), ("b", text "2"), ("a", text "3")] .start .initial console
  obtain ⟨-, -, -, herror⟩ := object_literal_keeps_last call
    [("a", print "1"), ("b", y), ("a", print "2")] .start .initial console
  obtain ⟨-, made, hliteral, hkeeps⟩ := hmade _ _ _ hturn
  have hlast : ("a", .text "3") ∈ made := (hkeeps.mem_iff "a" (.text "3")).2
    ⟨[("a", .null), ("b", .text "2")], [], rfl, List.not_mem_nil⟩
  exact ⟨⟨hturn, made, hliteral, hkeeps.keys.trans (by decide), hlast⟩, hfails,
    (herror _ _ _).2 hfails⟩

end Arrow
