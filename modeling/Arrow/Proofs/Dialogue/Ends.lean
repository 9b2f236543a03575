import Arrow.Dialogue.Console

/-!
# How dialogues end

`d.Ends P` says that the result of `d` satisfies `P`, whatever is answered on the way. A dialogue
that goes on ends as its last part does (`Ends.bind`), and a dialogue held with any console ends
accordingly (`Ends.conduct`).
-/

namespace Arrow

namespace Dialogue

variable {σ α β : Type} {P Q : α → Prop}

/-- Whatever is answered, the result satisfies `P`. -/
def Ends (P : α → Prop) : Dialogue α → Prop
  | done value => P value
  | write _ _ next => ∀ answer, (next answer).Ends P
  | read _ next => ∀ answer, (next answer).Ends P

theorem Ends.mono {d : Dialogue α} (h : d.Ends P) (hPQ : ∀ value, P value → Q value) :
    d.Ends Q := by
  induction d with
  | done value => exact hPQ value h
  | write text caller next ih => exact fun answer => ih answer (h answer)
  | read caller next ih => exact fun answer => ih answer (h answer)

theorem Ends.bind {d : Dialogue α} {f : α → Dialogue β} {Q : β → Prop} (hd : d.Ends P)
    (hf : ∀ value, P value → (f value).Ends Q) : (d >>= f).Ends Q := by
  induction d with
  | done value => exact hf value hd
  | write text caller next ih => exact fun answer => ih answer (hd answer)
  | read caller next ih => exact fun answer => ih answer (hd answer)

theorem Ends.bind_congr {d : Dialogue α} {f g : α → Dialogue β} (hd : d.Ends P)
    (hfg : ∀ value, P value → f value = g value) : d >>= f = d >>= g := by
  induction d with
  | done value => exact hfg value hd
  | write text caller next ih =>
    exact congrArg (write text caller) (funext fun answer => ih answer (hd answer))
  | read caller next ih => exact congrArg (read caller) (funext fun answer => ih answer (hd answer))

theorem Ends.conduct [Console σ] {d : Dialogue α} (h : d.Ends P) (console : σ) :
    P (d.conduct console).1 := by
  induction d generalizing console with
  | done value => exact h
  | write text caller next ih => exact ih _ (h _) _
  | read caller next ih => exact ih _ (h _) _

end Dialogue

end Arrow
