import Arrow.Proofs.Dialogue.Faults

/-!
# Dialogues that only write

`d.Recites value texts` says that `d` reads nothing and, if every text is written, writes the given
ones and ends in the value. Of two dialogues that follow each other, the second recites what the
first leaves (`Recites.bind`, `Recites.exists_of_bind`). With a console that never fails to write,
what a dialogue recites is all there is to know of it (`recites_of_log`, `Recites.conduct`).
-/

namespace Arrow

namespace Dialogue

variable {σ α β : Type}

/-- When every text is written, the dialogue reads nothing and ends in the value. -/
inductive Recites : Dialogue α → α → List String → Prop
  | done (value : α) : Recites (done value) value []
  | write {text : String} {caller : Option Position} {next : Except String Unit → Dialogue α}
    {value : α} {texts : List String} (h : Recites (next (.ok ())) value texts) :
    Recites (write text caller next) value (text :: texts)

variable {d : Dialogue α} {f : α → Dialogue β} {value : α} {other : β} {texts others : List String}

theorem Recites.bind (h : d.Recites value texts) (hnext : (f value).Recites other others) :
    (d >>= f).Recites other (texts ++ others) := by
  induction h with
  | done value => exact hnext
  | write _ ih => exact .write (ih hnext)

/-- A dialogue that is not gone on from has recited all. -/
theorem Recites.bind_done (h : d.Recites value texts) (hnext : f value = .done other) :
    (d >>= f).Recites other texts := by
  have hother : (f value).Recites other [] := hnext ▸ Recites.done other
  simpa only [List.append_nil] using h.bind hother

theorem Recites.exists_of_bind (h : (d >>= f).Recites other texts) :
    ∃ value front rest,
      d.Recites value front ∧ (f value).Recites other rest ∧ texts = front ++ rest := by
  induction d generalizing texts with
  | done value => exact ⟨value, [], texts, .done value, h, rfl⟩
  | write text caller next ih =>
    cases h with
    | write h =>
      obtain ⟨value, front, rest, hfront, hrest, rfl⟩ := ih _ h
      exact ⟨value, text :: front, rest, .write hfront, hrest, rfl⟩
  | read caller next ih => cases h

variable [Console σ]
  (hwrites : ∀ text (console : σ), (Console.write text console).1 = .ok ()) (console : σ)

include hwrites

/-- A dialogue in which nothing is read recites what the console is told to write. -/
theorem recites_of_log (h : ∀ op ∈ d.log console, op.isWrite) :
    d.Recites (d.conduct console).1 ((d.log console).map (·.text)) := by
  induction d generalizing console with
  | done value => exact .done value
  | write text caller next ih =>
    have hrest := ih (Console.write text console).1 (Console.write text console).2
      (List.forall_mem_cons.1 h).2
    refine .write ?_
    rw [← hwrites text console]
    exact hrest
  | read caller next ih => exact nomatch (List.forall_mem_cons.1 h).1

theorem Recites.conduct (h : d.Recites value texts) :
    (d.conduct console).1 = value ∧ (d.log console).map (·.text) = texts := by
  induction h generalizing console with
  | done value => exact ⟨rfl, rfl⟩
  | @write text caller next _ _ _ ih =>
    obtain ⟨hvalue, htexts⟩ := ih (Console.write text console).2
    rw [← hwrites text console] at hvalue htexts
    exact ⟨hvalue, congrArg (text :: ·) htexts⟩

end Dialogue

end Arrow
