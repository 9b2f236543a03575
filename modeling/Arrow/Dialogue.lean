import Arrow.Position

/-!
# Dialogues

A dialogue is what a program says and asks before it has a result: a tree with an edge for every
answer of the console. It does not depend on what the console is. Dialogues follow one another as
a lawful monad, and `Dialogue.iterate` repeats one.
-/

namespace Arrow

/--
A result, or a text to write or a line to read first. An answer can be that this has failed. What
a call of a function says or asks bears the position of the call.
-/
inductive Dialogue (α : Type) where
  | done (value : α)
  | write (text : String) (caller : Option Position) (next : Except String Unit → Dialogue α)
  | read (caller : Option Position) (next : Except String (Option String) → Dialogue α)

namespace Dialogue

variable {α β σ : Type}

/-- Goes on with `f` once there is a result. -/
protected def bind (d : Dialogue α) (f : α → Dialogue β) : Dialogue β :=
  match d with
  | done value => f value
  | write text caller next => write text caller fun answer => (next answer).bind f
  | read caller next => read caller fun answer => (next answer).bind f

instance : Monad Dialogue where
  pure := done
  bind := Dialogue.bind

theorem bind_eq (d : Dialogue α) (f : α → Dialogue β) : d >>= f = d.bind f := rfl

@[simp]
theorem done_bind (value : α) (f : α → Dialogue β) : done value >>= f = f value := rfl

@[simp]
theorem write_bind (text : String) (caller : Option Position)
    (next : Except String Unit → Dialogue α) (f : α → Dialogue β) :
    write text caller next >>= f = write text caller fun answer => next answer >>= f :=
  rfl

@[simp]
theorem read_bind (caller : Option Position) (next : Except String (Option String) → Dialogue α)
    (f : α → Dialogue β) :
    read caller next >>= f = read caller fun answer => next answer >>= f :=
  rfl

theorem bind_done (d : Dialogue α) : d >>= done = d := by
  induction d with
  | done _ => rfl
  | write text caller next ih => simp only [write_bind, ih]
  | read caller next ih => simp only [read_bind, ih]

theorem bind_bind {γ : Type} (d : Dialogue α) (f : α → Dialogue β) (g : β → Dialogue γ) :
    d >>= f >>= g = d >>= fun value => f value >>= g := by
  induction d with
  | done _ => rfl
  | write text caller next ih => simp only [write_bind, ih]
  | read caller next ih => simp only [read_bind, ih]

instance : LawfulMonad Dialogue :=
  LawfulMonad.mk' Dialogue bind_done (fun _ _ => rfl) bind_bind

/-- Writes a text. -/
def say (text : String) (caller : Option Position) : Dialogue (Except String Unit) :=
  write text caller done

/-- Reads a line; there is none at the end of the input. -/
def ask (caller : Option Position) : Dialogue (Except String (Option String)) :=
  read caller done

/--
Repeats `round` until it gives a result, at most `n` times. A round that has its result without
saying or asking anything is followed by the next one at once.
-/
def iterate (round : σ → Dialogue (σ ⊕ β)) : Nat → σ → Dialogue (σ ⊕ β)
  | 0, state => done (.inl state)
  | n + 1, state =>
    match round state with
    | done (.inl state) => iterate round n state
    | done (.inr result) => done (.inr result)
    | d => d >>= fun
      | .inl state => iterate round n state
      | .inr result => done (.inr result)

theorem iterate_zero (round : σ → Dialogue (σ ⊕ β)) (state : σ) :
    iterate round 0 state = done (.inl state) := rfl

theorem iterate_succ (round : σ → Dialogue (σ ⊕ β)) (n : Nat) (state : σ) :
    iterate round (n + 1) state = round state >>= fun
      | .inl state => iterate round n state
      | .inr result => done (.inr result) := by
  rw [iterate]
  split <;> simp_all

end Dialogue

end Arrow
