import Arrow.Dialogue.Console

/-!
# Points of dialogues

`d.Reaches console e left` says that whoever holds the dialogue `d` with `console` comes to a point
where the dialogue `e` is still to be held with `left`. When a part of a dialogue has been held with
its result, what follows is such a point (`reaches_bind`).
-/

namespace Arrow

namespace Dialogue

variable {σ α β : Type} [Console σ]

/-- Holding the first dialogue comes to a point where the second is still to be held. -/
inductive Reaches : Dialogue α → σ → Dialogue α → σ → Prop
  | refl (d : Dialogue α) (console : σ) : Reaches d console d console
  | write {text : String} {caller : Option Position} {next : Except String Unit → Dialogue α}
    {console left : σ} {e : Dialogue α}
    (h : Reaches (next (Console.write text console).1) (Console.write text console).2 e left) :
    Reaches (write text caller next) console e left
  | read {caller : Option Position} {next : Except String (Option String) → Dialogue α}
    {console left : σ} {e : Dialogue α}
    (h : Reaches (next (Console.readLine console).1) (Console.readLine console).2 e left) :
    Reaches (read caller next) console e left

variable {d e : Dialogue α} {console left : σ}

theorem Reaches.of_eq (h : d = e) (console : σ) : d.Reaches console e console :=
  h ▸ .refl d console

theorem Reaches.trans {d' : Dialogue α} {last : σ} (h : d.Reaches console e left)
    (h' : e.Reaches left d' last) : d.Reaches console d' last := by
  induction h with
  | refl => exact h'
  | write _ ih => exact .write (ih h')
  | read _ ih => exact .read (ih h')

theorem Reaches.bind (h : d.Reaches console e left) (f : α → Dialogue β) :
    (d >>= f).Reaches console (e >>= f) left := by
  induction h with
  | refl => exact .refl _ _
  | write _ ih => exact .write ih
  | read _ ih => exact .read ih

/-- Holding a dialogue is holding what is left of it at a point. -/
theorem Reaches.conduct_eq (h : d.Reaches console e left) :
    d.conduct console = e.conduct left := by
  induction h with
  | refl => rfl
  | write _ ih => exact ih
  | read _ ih => exact ih

theorem reaches_bind {value : α} (h : d.conduct console = (value, left)) (f : α → Dialogue β) :
    (d >>= f).Reaches console (f value) left := by
  induction d generalizing console with
  | done _ =>
    cases h
    exact .refl _ _
  | write text caller next ih => exact .write (ih _ h)
  | read caller next ih => exact .read (ih _ h)

end Dialogue

end Arrow
