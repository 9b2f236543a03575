import Arrow.Proofs.Value.Closed
import Mathlib.Data.Set.Card

/-!
# Keys of objects

An object is made key by key, and a key that it has already keeps its place (`keys_setField`). So
the values in which no object has a key twice are closed under what programs do to values
(`closed_keysDistinct`). Of an object whose keys are distinct, member access, indexing and length
tell the same (`fields_agree`).
-/

namespace Arrow

namespace Value

mutual

/-- No object in the value, at any depth, has a key twice. -/
def KeysDistinct : Value → Prop
  | array elements => AllKeysDistinct elements
  | object fields => (fields.map (·.1)).Nodup ∧ FieldsKeysDistinct fields
  | _ => True

def AllKeysDistinct : List Value → Prop
  | [] => True
  | value :: values => value.KeysDistinct ∧ AllKeysDistinct values

def FieldsKeysDistinct : List (String × Value) → Prop
  | [] => True
  | (_, value) :: fields => value.KeysDistinct ∧ FieldsKeysDistinct fields

end

theorem allKeysDistinct_iff {values : List Value} :
    AllKeysDistinct values ↔ ∀ value ∈ values, value.KeysDistinct := by
  induction values with
  | nil => exact ⟨fun _ => List.forall_mem_nil _, fun _ => trivial⟩
  | cons value values ih =>
    rw [List.forall_mem_cons, ← ih]
    rfl

theorem fieldsKeysDistinct_iff {fields : List (String × Value)} :
    FieldsKeysDistinct fields ↔ ∀ field ∈ fields, field.2.KeysDistinct := by
  induction fields with
  | nil => exact ⟨fun _ => List.forall_mem_nil _, fun _ => trivial⟩
  | cons field fields ih =>
    rw [List.forall_mem_cons, ← ih]
    rfl

/-! ## Making objects -/

/-- A key that is new comes last, and otherwise the keys stay as they are. -/
theorem keys_setField (key : String) (value : Value) (fields : List (String × Value)) :
    (setField key value fields).map (·.1) =
      if key ∈ fields.map (·.1) then fields.map (·.1) else fields.map (·.1) ++ [key] := by
  induction fields with
  | nil => rfl
  | cons field fields ih =>
    obtain ⟨held, _⟩ := field
    unfold setField
    by_cases h : held = key
    · simp [h]
    · simp only [if_neg h, List.map_cons, ih, List.mem_cons, Ne.symm h, false_or]
      split <;> rfl

theorem mem_setField {key : String} {value : Value} {fields : List (String × Value)}
    {field : String × Value} (h : field ∈ setField key value fields) :
    field = (key, value) ∨ field ∈ fields := by
  induction fields with
  | nil => exact .inl (List.mem_singleton.1 h)
  | cons first fields ih =>
    obtain ⟨held, old⟩ := first
    unfold setField at h
    split at h
    case isTrue heq =>
      subst heq
      exact (List.mem_cons.1 h).imp_right (List.mem_cons_of_mem _)
    case isFalse =>
      rcases List.mem_cons.1 h with rfl | h
      · exact .inr List.mem_cons_self
      · exact (ih h).imp_right (List.mem_cons_of_mem _)

theorem KeysDistinct.setField {fields : List (String × Value)} (h : (object fields).KeysDistinct)
    (key : String) {value : Value} (hvalue : value.KeysDistinct) :
    (object (setField key value fields)).KeysDistinct := by
  refine ⟨?_, fieldsKeysDistinct_iff.2 fun field hfield => ?_⟩
  · rw [keys_setField]
    split
    case isTrue => exact h.1
    case isFalse hnew => exact List.concat_eq_append ▸ h.1.concat hnew
  · rcases mem_setField hfield with rfl | hfield
    · exact hvalue
    · exact fieldsKeysDistinct_iff.1 h.2 field hfield

theorem keysDistinct_ofFields {fields : List (String × Value)} (h : FieldsKeysDistinct fields) :
    (ofFields fields).KeysDistinct := by
  unfold ofFields
  -- Distinct keys are an invariant of the object made so far, whatever fields are still to come.
  have hmade : (object []).KeysDistinct := ⟨.nil, trivial⟩
  generalize [] = made at hmade ⊢
  induction fields generalizing made with
  | nil => exact hmade
  | cons field fields ih => exact ih h.2 _ (hmade.setField field.1 h.1)

theorem closed_keysDistinct : Closed KeysDistinct where
  simple := by
    intro value h
    cases value with
    | array _ => exact h.elim
    | object _ => exact h.elim
    | _ => trivial
  array := allKeysDistinct_iff
  field h := fieldsKeysDistinct_iff.1 h.2
  ofFields h := keysDistinct_ofFields (fieldsKeysDistinct_iff.2 h)

/-! ## Telling the fields of an object -/

theorem lookup?_eq_some_iff {fields : List (String × Value)} (h : (fields.map (·.1)).Nodup)
    {key : String} {value : Value} : lookup? key fields = some value ↔ (key, value) ∈ fields := by
  induction fields with
  | nil => exact ⟨nofun, nofun⟩
  | cons field fields ih =>
    obtain ⟨held, old⟩ := field
    obtain ⟨hnew, hrest⟩ := List.nodup_cons.1 h
    by_cases heq : held = key
    · subst heq
      have hfresh : (held, value) ∉ fields := fun hmem =>
        hnew (List.mem_map_of_mem (f := (·.1)) hmem)
      simp [lookup?, hfresh, eq_comm]
    · have hrest : lookup? key fields = some value ↔ (key, value) ∈ fields := ih hrest
      have hskip : lookup? key ((held, old) :: fields) = lookup? key fields := by
        simp [lookup?, heq]
      rw [hskip, hrest]
      simp [Ne.symm heq]

theorem member_object_eq_ok {fields : List (String × Value)} {key : String} {value : Value}
    {p : Position} :
    (object fields).member key p = .ok value ↔ lookup? key fields = some value := by
  unfold member
  dsimp only
  cases lookup? key fields with
  | none => exact ⟨nofun, nofun⟩
  | some found => rw [Except.ok.injEq, Option.some.injEq]

/--
Where keys are distinct, the names that an object has as members are the keys of its fields, each
with the value of that field; indexing by a text finds the same; and the length counts these names.
-/
theorem fields_agree {fields : List (String × Value)} (h : (fields.map (·.1)).Nodup)
    (p : Position) :
    (∀ key value, (object fields).member key p = .ok value ↔ (key, value) ∈ fields) ∧
      (∀ key, (object fields).index (text key) p = (object fields).member key p) ∧
      (object fields).len p = .ok (integer (Integer.ofLength
        {key | ∃ value, (object fields).member key p = .ok value}.ncard)) := by
  have hmember : ∀ key value, (object fields).member key p = .ok value ↔ (key, value) ∈ fields :=
    fun key value => member_object_eq_ok.trans (lookup?_eq_some_iff h)
  refine ⟨hmember, fun _ => rfl, ?_⟩
  have hkeys : {key | ∃ value, (object fields).member key p = .ok value} =
      (fields.map (·.1)).toFinset := by
    ext key
    simp [hmember]
  rw [hkeys, Set.ncard_coe_finset, List.toFinset_card_of_nodup h, List.length_map]
  rfl

end Value

end Arrow
