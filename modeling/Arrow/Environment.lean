import Arrow.Error
import Arrow.Program
import Arrow.Value.Text

/-!
# Environments

An environment binds names to values. Its bindings are sorted by name, so that two environments
with the same bindings are equal. A name that is bound as a constant is never bound again, except
that `overlay` binds a name whatever it was.
-/

namespace Arrow

/-- The value of a name, and whether the name may be written again. -/
structure Binding where
  value : Value
  mutability : Mutability

/-- Binds `name` in a sorted list of bindings, in place of any binding that it had. -/
def Binding.insert (name : String) (binding : Binding) :
    List (String × Binding) → List (String × Binding)
  | [] => [(name, binding)]
  | (other, held) :: rest =>
    if name < other then (name, binding) :: (other, held) :: rest
    else if name = other then (name, binding) :: rest
    else (other, held) :: insert name binding rest

theorem Binding.mem_insert {name : String} {binding : Binding} {bindings : List (String × Binding)}
    {entry : String × Binding} (h : entry ∈ insert name binding bindings) :
    entry.1 = name ∨ entry ∈ bindings := by
  induction bindings with
  | nil => simp_all [insert]
  | cons held rest ih =>
    simp only [insert] at h
    split at h
    · simp only [List.mem_cons] at h ⊢
      rcases h with rfl | h
      · exact .inl rfl
      · exact .inr h
    · split at h
      · simp only [List.mem_cons] at h ⊢
        rcases h with rfl | h
        · exact .inl rfl
        · exact .inr (.inr h)
      · simp only [List.mem_cons] at h ⊢
        rcases h with rfl | h
        · exact .inr (.inl rfl)
        · exact (ih h).imp id .inr

theorem Binding.insert_sorted (name : String) (binding : Binding)
    {bindings : List (String × Binding)} (h : bindings.Pairwise (·.1 < ·.1)) :
    (insert name binding bindings).Pairwise (·.1 < ·.1) := by
  induction bindings with
  | nil => exact List.pairwise_singleton _ _
  | cons held rest ih =>
    obtain ⟨hheld, hrest⟩ := List.pairwise_cons.1 h
    simp only [insert]
    split
    case isTrue hlt =>
      refine List.pairwise_cons.2 ⟨fun entry hentry => ?_, h⟩
      rcases List.mem_cons.1 hentry with rfl | hentry
      · exact hlt
      · exact String.lt_trans hlt (hheld entry hentry)
    case isFalse hge =>
      split
      case isTrue heq =>
        subst heq
        exact List.pairwise_cons.2 ⟨hheld, hrest⟩
      case isFalse hne =>
        refine List.pairwise_cons.2 ⟨fun entry hentry => ?_, ih hrest⟩
        rcases mem_insert hentry with heq | hentry
        · rw [heq]
          refine String.not_le.1 fun hle => hne ?_
          exact String.le_antisymm hle (String.not_lt.1 hge)
        · exact hheld entry hentry

theorem Binding.find?_insert (name other : String) (binding : Binding)
    (bindings : List (String × Binding)) :
    (insert name binding bindings).find? (·.1 = other) =
      if name = other then some (name, binding) else bindings.find? (·.1 = other) := by
  induction bindings with
  | nil => by_cases h : name = other <;> simp [insert, h]
  | cons held rest ih =>
    obtain ⟨key, held⟩ := held
    simp only [insert]
    split
    · by_cases h : name = other <;> simp [h]
    · split
      case isTrue heq =>
        subst heq
        by_cases h : name = other <;> simp [h]
      case isFalse hne =>
        by_cases h : key = other
        · subst h
          simp [hne]
        · simp [h, ih]

/-- Sorted lists of bindings are equal when every name has the same binding in both. -/
theorem Binding.eq_of_find?_eq {first second : List (String × Binding)}
    (hfirst : first.Pairwise (·.1 < ·.1)) (hsecond : second.Pairwise (·.1 < ·.1))
    (h : ∀ name, first.find? (·.1 = name) = second.find? (·.1 = name)) : first = second := by
  induction first generalizing second with
  | nil =>
    cases second with
    | nil => rfl
    | cons b bs => simpa using h b.1
  | cons a as ih =>
    cases second with
    | nil => simpa using h a.1
    | cons b bs =>
      obtain ⟨ha, has⟩ := List.pairwise_cons.1 hfirst
      obtain ⟨hb, hbs⟩ := List.pairwise_cons.1 hsecond
      have hab : a = b := by
        by_cases heq : a.1 = b.1
        · simpa [heq] using h a.1
        · have hbs : bs.find? (·.1 = a.1) = some a := by simpa [Ne.symm heq] using (h a.1).symm
          have has : as.find? (·.1 = b.1) = some b := by simpa [heq] using h b.1
          exact absurd (String.lt_trans (ha b (List.mem_of_find?_eq_some has))
            (hb a (List.mem_of_find?_eq_some hbs))) (String.lt_irrefl _)
      subst hab
      congr 1
      refine ih has hbs fun name => ?_
      by_cases heq : a.1 = name
      · subst heq
        have fresh {rest : List (String × Binding)} (hrest : ∀ entry ∈ rest, a.1 < entry.1) :
            rest.find? (·.1 = a.1) = none := by
          simp only [List.find?_eq_none, decide_eq_true_eq]
          exact fun entry hentry heq => String.lt_irrefl _ (heq ▸ hrest entry hentry)
        rw [fresh ha, fresh hb]
      · simpa [heq] using h name

/-- The bindings of names, sorted by name. -/
structure Environment where
  bindings : List (String × Binding)
  sorted : bindings.Pairwise (·.1 < ·.1)

namespace Environment

/-- The environment that binds nothing. -/
def empty : Environment := ⟨[], .nil⟩

/-- The binding of a name. -/
def get? (env : Environment) (name : String) : Option Binding :=
  (env.bindings.find? (·.1 = name)).map (·.2)

/-- The number of names that are bound. -/
def size (env : Environment) : Nat :=
  env.bindings.length

/-- The names that are bound, in order. -/
def names (env : Environment) : List String :=
  env.bindings.map (·.1)

/-- Binds a name, even one that is bound as a constant. -/
def overlay (env : Environment) (name : String) (value : Value) (mutability : Mutability) :
    Environment :=
  ⟨Binding.insert name ⟨value, mutability⟩ env.bindings, Binding.insert_sorted _ _ env.sorted⟩

@[simp]
theorem get?_empty (name : String) : empty.get? name = none := rfl

theorem get?_overlay (env : Environment) (name other : String) (value : Value)
    (mutability : Mutability) :
    (env.overlay name value mutability).get? other =
      if name = other then some ⟨value, mutability⟩ else env.get? other := by
  simp only [get?, overlay, Binding.find?_insert]
  split <;> rfl

/-- Environments are equal when every name has the same binding in both. -/
theorem ext_get? {first second : Environment} (h : ∀ name, first.get? name = second.get? name) :
    first = second := by
  obtain ⟨as, has⟩ := first
  obtain ⟨bs, hbs⟩ := second
  have whole (bindings : List (String × Binding)) (name : String) :
      ((bindings.find? (·.1 = name)).map (·.2)).map ((name, ·)) =
        bindings.find? (·.1 = name) := by
    cases hfound : bindings.find? (·.1 = name) with
    | none => rfl
    | some entry =>
      have := List.find?_some hfound
      simp only [decide_eq_true_eq] at this
      simp [← this]
  have : as = bs := Binding.eq_of_find?_eq has hbs fun name => by
    rw [← whole as name, ← whole bs name]
    exact congrArg (Option.map ((name, ·))) (h name)
  subst this
  rfl

/-- Fails at `p` if the name is bound as a constant. -/
def ensureWritable (env : Environment) (name : String) (p : Position) :
    Except RuntimeError Unit :=
  match env.get? name with
  | some ⟨_, .const⟩ => .error (.constReassignment name p)
  | _ => .ok ()

/-- Binds a name that is not bound as a constant. -/
def declare (env : Environment) (name : String) (value : Value) (mutability : Mutability)
    (p : Position) : Except RuntimeError Environment :=
  (env.ensureWritable name p).map fun _ => env.overlay name value mutability

theorem eq_overlay_of_declare {env after : Environment} {name : String} {value : Value}
    {mutability : Mutability} {p : Position}
    (h : env.declare name value mutability p = .ok after) :
    env.ensureWritable name p = .ok () ∧ after = env.overlay name value mutability := by
  unfold declare at h
  cases hwritable : env.ensureWritable name p with
  | error cause =>
    rw [hwritable] at h
    exact nomatch h
  | ok _ =>
    rw [hwritable] at h
    exact ⟨rfl, (Except.ok.inj h).symm⟩

/-- Gives a value to a name that is not bound as a constant. -/
def assign (env : Environment) (name : String) (value : Value) (p : Position) :
    Except RuntimeError Environment :=
  env.declare name value .var p

/-- The text of an environment, with a line for each binding. -/
def render (env : Environment) : String :=
  "\n".intercalate <| env.bindings.map fun (name, ⟨value, mutability⟩) =>
    s!"<{mutability.name}> {name} = {value.render}"

end Environment

end Arrow
