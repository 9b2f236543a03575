import Mathlib.Data.Finset.Card
import Arrow.Environment
import Arrow.Proofs.Text.ByteOrder

/-!
# What an environment remembers

After any calls that declare and assign names, a name has the binding of the last call on it that
took effect: up to the first call that made it a constant every call does, and afterwards none. The
calls that come too late fail at their own positions and change nothing. The names come in the order
of their bytes, each of them once (`Environment.history_last_write_wins`).
-/

namespace Arrow

namespace Environment

/-- A call that binds a name at a position. -/
inductive Write where
  | declare (name : String) (value : Value) (mutability : Mutability) (position : Position)
  | assign (name : String) (value : Value) (position : Position)

namespace Write

def name : Write → String
  | declare name _ _ _ => name
  | assign name _ _ => name

def position : Write → Position
  | declare _ _ _ p => p
  | assign _ _ p => p

/-- The binding that the call writes. -/
def binding : Write → Binding
  | declare _ value mutability _ => ⟨value, mutability⟩
  | assign _ value _ => ⟨value, .var⟩

/-- What the call gives in an environment. -/
def result (env : Environment) : Write → Except RuntimeError Environment
  | declare name value mutability p => env.declare name value mutability p
  | assign name value p => env.assign name value p

/-- The call binds `name` as a constant. -/
def Locks (w : Write) (name : String) : Prop :=
  w.name = name ∧ w.binding.mutability = .const

instance (w : Write) (name : String) : Decidable (w.Locks name) :=
  inferInstanceAs (Decidable (_ ∧ _))

end Write

/-- The environment after a call, which is the same again when the call fails. -/
def after (env : Environment) (w : Write) : Environment :=
  match w.result env with
  | .ok env => env
  | .error _ => env

/-- The environment after calls one after the other, with nothing bound in front of them. -/
def history (ws : List Write) : Environment :=
  ws.foldl after empty

/-- The calls up to the first one that binds `name` as a constant, with that one. -/
def upToConstant (name : String) : List Write → List Write
  | [] => []
  | w :: ws => if w.Locks name then [w] else w :: upToConstant name ws

/-- The last call on `name` among those up to the first one that makes it a constant. -/
def lastWrite? (name : String) (ws : List Write) : Option Write :=
  ((upToConstant name ws).filter (·.name = name)).getLast?

variable (env : Environment) (w : Write) (ws : List Write) (name : String)

/-! ## One call -/

/-- The name is bound as a constant. -/
def IsConstant : Prop :=
  (env.get? name).map (·.mutability) = some .const

instance : Decidable (env.IsConstant name) :=
  inferInstanceAs (Decidable (_ = _))

theorem ensureWritable_eq (p : Position) : env.ensureWritable name p =
    if env.IsConstant name then .error (.constReassignment name p) else .ok () := by
  unfold ensureWritable
  split
  case h_1 value hbound =>
    rw [if_pos]
    unfold IsConstant
    rw [hbound]
    rfl
  case h_2 hother =>
    rw [if_neg]
    intro hconst
    obtain ⟨⟨value, _⟩, hbound, rfl⟩ := Option.map_eq_some_iff.1 hconst
    exact hother value hbound

theorem Write.result_eq_map : w.result env = (env.ensureWritable w.name w.position).map fun _ =>
    env.overlay w.name w.binding.value w.binding.mutability := by
  cases w <;> rfl

theorem Write.result_eq : w.result env = if env.IsConstant w.name
    then .error (.constReassignment w.name w.position)
    else .ok (env.overlay w.name w.binding.value w.binding.mutability) := by
  rw [Write.result_eq_map, ensureWritable_eq]
  split_ifs <;> rfl

theorem after_eq : env.after w = if env.IsConstant w.name then env
    else env.overlay w.name w.binding.value w.binding.mutability := by
  unfold after
  rw [Write.result_eq]
  split_ifs <;> rfl

theorem get?_after : (env.after w).get? name =
    if w.name = name ∧ ¬ env.IsConstant name then some w.binding else env.get? name := by
  rw [after_eq]
  by_cases hconst : env.IsConstant w.name
  · rw [if_pos hconst, if_neg]
    rintro ⟨rfl, hvariable⟩
    exact hvariable hconst
  · rw [if_neg hconst, get?_overlay]
    by_cases hname : w.name = name
    · rw [if_pos hname, if_pos ⟨hname, hname ▸ hconst⟩]
    · rw [if_neg hname, if_neg fun h => hname h.1]

theorem isConstant_after_iff :
    (env.after w).IsConstant name ↔ env.IsConstant name ∨ w.Locks name := by
  show ((env.after w).get? name).map (·.mutability) = some .const ↔ _
  rw [get?_after]
  by_cases hconst : env.IsConstant name
  · rw [if_neg fun h => h.2 hconst]
    exact (or_iff_left_of_imp fun _ => hconst).symm
  · rw [or_iff_right hconst]
    by_cases hname : w.name = name
    · rw [if_pos ⟨hname, hconst⟩, Option.map_some, Option.some_inj]
      exact (and_iff_right hname).symm
    · rw [if_neg fun h => hname h.1]
      exact iff_of_false hconst fun h => hname h.1

theorem isSome_get?_after_iff :
    ((env.after w).get? name).isSome ↔ (env.get? name).isSome ∨ w.name = name := by
  rw [get?_after]
  by_cases hname : w.name = name
  · refine iff_of_true ?_ (.inr hname)
    split_ifs with hwritten
    · rfl
    · have hconst : env.IsConstant name := by_contra fun h => hwritten ⟨hname, h⟩
      obtain ⟨binding, hbinding, -⟩ := Option.map_eq_some_iff.1 hconst
      exact Option.isSome_of_eq_some hbinding
  · rw [if_neg fun h => hname h.1, or_iff_left hname]

/-! ## Calls one after the other -/

theorem history_concat : history (ws ++ [w]) = (history ws).after w :=
  List.foldl_concat ..

theorem isConstant_history_iff : (history ws).IsConstant name ↔ ∃ w ∈ ws, w.Locks name := by
  -- From the last call backwards: what a call does depends on all that came in front of it.
  induction ws using List.reverseRecOn with
  | nil => exact iff_of_false nofun nofun
  | append_singleton ws w ih =>
    rw [history_concat, isConstant_after_iff, ih]
    simp only [List.mem_append, List.mem_singleton, or_and_right, exists_or, exists_eq_left]

theorem upToConstant_append (us : List Write) : upToConstant name (ws ++ us) =
    if ∃ w ∈ ws, w.Locks name then upToConstant name ws else ws ++ upToConstant name us := by
  induction ws with
  | nil => exact (if_neg nofun).symm
  | cons w ws ih =>
    rw [List.cons_append, upToConstant, upToConstant]
    by_cases hlocks : w.Locks name
    · rw [if_pos hlocks, if_pos hlocks, if_pos ⟨w, List.mem_cons_self, hlocks⟩]
    · have hrest : (∃ u ∈ w :: ws, u.Locks name) ↔ ∃ u ∈ ws, u.Locks name := by simp [hlocks]
      simp only [if_neg hlocks, ih, hrest]
      split_ifs <;> rfl

theorem upToConstant_of_not_locked (h : ¬ ∃ w ∈ ws, w.Locks name) : upToConstant name ws = ws := by
  have happend := upToConstant_append ws name []
  rwa [if_neg h, List.append_nil, upToConstant, List.append_nil] at happend

theorem lastWrite?_concat : lastWrite? name (ws ++ [w]) =
    if w.name = name ∧ ¬ ∃ u ∈ ws, u.Locks name then some w else lastWrite? name ws := by
  unfold lastWrite?
  rw [upToConstant_append]
  by_cases hlocked : ∃ u ∈ ws, u.Locks name
  · rw [if_pos hlocked, if_neg fun h => h.2 hlocked]
  · have hsingle : upToConstant name [w] = [w] := by
      unfold upToConstant
      split_ifs <;> rfl
    rw [if_neg hlocked, hsingle, upToConstant_of_not_locked ws name hlocked, List.filter_append]
    by_cases hname : w.name = name
    · rw [if_pos ⟨hname, hlocked⟩, List.filter_cons_of_pos (by rwa [decide_eq_true_eq])]
      exact List.getLast?_concat ..
    · rw [if_neg fun h => hname h.1, List.filter_cons_of_neg (by rwa [decide_eq_true_eq])]
      exact congrArg List.getLast? (List.append_nil _)

/-- A name has the binding of the last call that took effect. -/
theorem get?_history : (history ws).get? name = (lastWrite? name ws).map Write.binding := by
  induction ws using List.reverseRecOn with
  | nil => rfl
  | append_singleton ws w ih =>
    rw [history_concat, get?_after, lastWrite?_concat, ih]
    simp only [isConstant_history_iff]
    split_ifs <;> rfl

/-! ## Names -/

theorem find?_eq_some_of_mem {bindings : List (String × Binding)}
    (h : bindings.Pairwise (·.1 < ·.1)) {entry : String × Binding} (hentry : entry ∈ bindings) :
    bindings.find? (·.1 = entry.1) = some entry := by
  induction bindings with
  | nil => exact nomatch hentry
  | cons held rest ih =>
    obtain ⟨hheld, hrest⟩ := List.pairwise_cons.1 h
    rcases List.mem_cons.1 hentry with rfl | hentry
    · exact List.find?_cons_of_pos (by simp)
    · rw [List.find?_cons_of_neg, ih hrest hentry]
      rw [decide_eq_true_eq]
      exact String.ne_of_lt (hheld entry hentry)

theorem mem_bindings_iff {name : String} {binding : Binding} :
    (name, binding) ∈ env.bindings ↔ env.get? name = some binding := by
  constructor
  · intro h
    unfold get?
    rw [find?_eq_some_of_mem env.sorted h]
    rfl
  · intro h
    obtain ⟨⟨other, _⟩, hfound, rfl⟩ := Option.map_eq_some_iff.1 h
    have hname : other = name := by simpa using List.find?_some hfound
    exact hname ▸ List.mem_of_find?_eq_some hfound

theorem names_sorted : env.names.Pairwise (· < ·) :=
  List.pairwise_map.2 env.sorted

theorem nodup_names : env.names.Nodup :=
  env.names_sorted.imp String.ne_of_lt

theorem mem_names_iff : name ∈ env.names ↔ (env.get? name).isSome := by
  unfold names
  simp only [List.mem_map, Prod.exists, exists_eq_right, exists_and_right, mem_bindings_iff,
    Option.isSome_iff_exists]

theorem isSome_get?_history_iff :
    ((history ws).get? name).isSome ↔ name ∈ ws.map Write.name := by
  induction ws using List.reverseRecOn with
  | nil => exact iff_of_false nofun nofun
  | append_singleton ws w ih =>
    rw [history_concat, isSome_get?_after_iff, ih, List.map_append, List.mem_append,
      List.map_singleton, List.mem_singleton, eq_comm]

theorem size_history : (history ws).size = (ws.map Write.name).toFinset.card := by
  have hsize : (history ws).size = (history ws).names.length := (List.length_map _).symm
  rw [hsize, ← List.toFinset_card_of_nodup (history ws).nodup_names]
  congr 1
  ext name
  rw [List.mem_toFinset, List.mem_toFinset, mem_names_iff, isSome_get?_history_iff]

/--
After any calls a name has the binding of the last call on it among those up to the first one that
made it a constant. After that one every call on it fails at its own position and changes nothing,
and every other call succeeds and changes no other name; to ask whether a name can be written fails
as a call on it would. The bindings are listed once for each name that has been written, in the
order of the bytes of the names.
-/
theorem history_last_write_wins :
    (∀ name, (history ws).get? name = (lastWrite? name ws).map Write.binding) ∧
    ((∃ u ∈ ws, u.Locks w.name) →
      w.result (history ws) = .error (.constReassignment w.name w.position) ∧
      history (ws ++ [w]) = history ws) ∧
    ((¬ ∃ u ∈ ws, u.Locks w.name) →
      w.result (history ws) = .ok (history (ws ++ [w])) ∧
      ∀ name ≠ w.name, (history (ws ++ [w])).get? name = (history ws).get? name) ∧
    (∀ cause, (history ws).ensureWritable w.name w.position = .error cause ↔
      w.result (history ws) = .error cause) ∧
    (∀ name binding, (name, binding) ∈ (history ws).bindings ↔
      (history ws).get? name = some binding) ∧
    (history ws).names.Pairwise (Text.bytes · < Text.bytes ·) ∧
    (history ws).size = (ws.map Write.name).toFinset.card := by
  refine ⟨get?_history ws, ?_, ?_, ?_, fun name binding => mem_bindings_iff _,
    (history ws).names_sorted.imp Text.bytes_lt_bytes_iff.2, size_history ws⟩
  · intro hlocked
    have hconst := (isConstant_history_iff ws w.name).2 hlocked
    rw [history_concat, Write.result_eq, after_eq, if_pos hconst, if_pos hconst]
    exact ⟨rfl, rfl⟩
  · intro hopen
    have hvariable := (isConstant_history_iff ws w.name).not.2 hopen
    refine ⟨?_, fun name hname => ?_⟩
    · rw [history_concat, Write.result_eq, after_eq, if_neg hvariable, if_neg hvariable]
    · rw [history_concat, get?_after, if_neg fun h => hname h.1.symm]
  · intro cause
    rw [Write.result_eq_map]
    cases (history ws).ensureWritable w.name w.position <;> simp [Except.map]

theorem history_last_write_wins_of_constant :
    (∃ u ∈ [Write.declare "limit" .null .const .start, .assign "x" .null .start],
      u.Locks "limit") ∧
    (Write.assign "limit" (.bool true) .start).result
        (history [.declare "limit" .null .const .start, .assign "x" .null .start]) =
      .error (.constReassignment "limit" .start) := by
  have hlocked : ∃ u ∈ [Write.declare "limit" .null .const .start, .assign "x" .null .start],
      u.Locks "limit" := ⟨_, List.mem_cons_self, rfl, rfl⟩
  obtain ⟨-, hrefused, -⟩ := history_last_write_wins (.assign "limit" (.bool true) .start)
    [.declare "limit" .null .const .start, .assign "x" .null .start]
  exact ⟨hlocked, (hrefused hlocked).1⟩

end Environment

end Arrow
