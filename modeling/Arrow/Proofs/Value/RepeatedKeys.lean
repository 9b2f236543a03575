import Arrow.Proofs.Value.Keys
import Mathlib.Data.List.Induction

/-!
# Repeated keys

The fields from which an object is made may have a key several times. The object has each key once,
in the place of its first field (`made_keys`) and with the value of its last field (`mem_made_iff`);
what can be told of its fields follows from that.
-/

namespace Arrow

/-! ## First occurrences -/

theorem eraseDups_concat (keys : List String) (key : String) :
    (keys ++ [key]).eraseDups = if key ∈ keys then keys.eraseDups else keys.eraseDups ++ [key] := by
  rw [List.eraseDups_append]
  by_cases h : key ∈ keys <;> simp [List.removeAll, h, List.eraseDups_cons]

theorem nodup_eraseDups (keys : List String) : keys.eraseDups.Nodup := by
  induction keys using List.reverseRecOn with
  | nil => exact List.nodup_nil
  | append_singleton keys key ih =>
    rw [eraseDups_concat]
    split
    case isTrue => exact ih
    case isFalse h => exact List.concat_eq_append ▸ ih.concat (mt List.mem_eraseDups.1 h)

theorem length_eraseDups (keys : List String) : keys.eraseDups.length = keys.toFinset.card := by
  rw [← List.toFinset_card_of_nodup (nodup_eraseDups keys)]
  congr 1
  ext key
  simp only [List.mem_toFinset, List.mem_eraseDups]

namespace Value

/-! ## Last values -/

/-- The last of the fields that have the key has the value. -/
def IsLast (key : String) (value : Value) (fields : List (String × Value)) : Prop :=
  ∃ front back, fields = front ++ (key, value) :: back ∧ key ∉ back.map (·.1)

theorem isLast_iff {key : String} {value : Value} {fields : List (String × Value)} :
    IsLast key value fields ↔ lookup? key fields.reverse = some value := by
  unfold lookup? IsLast
  rw [Option.map_eq_some_iff]
  constructor
  · rintro ⟨front, back, rfl, hback⟩
    refine ⟨(key, value), List.find?_eq_some_iff_append.2 ⟨by simp, back.reverse, front.reverse,
      by simp, fun field hfield => ?_⟩, rfl⟩
    have hne : field.1 ≠ key := fun heq =>
      hback (List.mem_map.2 ⟨field, List.mem_reverse.1 hfield, heq⟩)
    simpa using hne
  · rintro ⟨⟨held, _⟩, hfind, rfl⟩
    obtain ⟨hkey, behind, before, hsplit, hbehind⟩ := List.find?_eq_some_iff_append.1 hfind
    obtain rfl : held = key := by simpa using hkey
    refine ⟨before.reverse, behind.reverse, ?_, fun hmem => ?_⟩
    · rw [← List.reverse_reverse fields, hsplit]
      simp
    · obtain ⟨field, hfield, heq⟩ := List.mem_map.1 hmem
      simpa [heq] using hbehind field (List.mem_reverse.1 hfield)

/-! ## Objects made from fields -/

/-- The fields of the object that is made from the given ones. -/
def made (fields : List (String × Value)) : List (String × Value) :=
  fields.foldl (fun made (key, value) => setField key value made) []

theorem made_concat (fields : List (String × Value)) (key : String) (value : Value) :
    made (fields ++ [(key, value)]) = setField key value (made fields) :=
  List.foldl_concat ..

theorem made_keys (fields : List (String × Value)) :
    (made fields).map (·.1) = (fields.map (·.1)).eraseDups := by
  induction fields using List.reverseRecOn with
  | nil => rfl
  | append_singleton fields field ih =>
    rw [made_concat, keys_setField, ih, List.map_append, List.map_singleton, eraseDups_concat]
    simp only [List.mem_eraseDups]

theorem lookup?_made (key : String) (fields : List (String × Value)) :
    lookup? key (made fields) = lookup? key fields.reverse := by
  induction fields using List.reverseRecOn with
  | nil => rfl
  | append_singleton fields field ih =>
    obtain ⟨held, value⟩ := field
    rw [made_concat, lookup?_setField, ih, List.reverse_concat]
    by_cases h : held = key <;> simp [lookup?, h]

theorem nodup_made_keys (fields : List (String × Value)) : ((made fields).map (·.1)).Nodup :=
  made_keys fields ▸ nodup_eraseDups _

theorem mem_made_iff {key : String} {value : Value} {fields : List (String × Value)} :
    (key, value) ∈ made fields ↔ IsLast key value fields := by
  rw [← lookup?_eq_some_iff (nodup_made_keys fields), lookup?_made, isLast_iff]

theorem len_made (fields : List (String × Value)) (p : Position) :
    (object (made fields)).len p =
      .ok (integer (Integer.ofLength (fields.map (·.1)).toFinset.card)) := by
  rw [← length_eraseDups, ← made_keys, List.length_map]
  rfl

theorem exists_isLast_of_mem {key : String} {fields : List (String × Value)}
    (h : key ∈ fields.map (·.1)) : ∃ value, IsLast key value fields := by
  rw [← List.mem_eraseDups, ← made_keys] at h
  obtain ⟨⟨_, value⟩, hmem, rfl⟩ := List.mem_map.1 h
  exact ⟨value, mem_made_iff.1 hmem⟩

theorem member_made_of_notMem {key : String} {fields : List (String × Value)}
    (h : key ∉ fields.map (·.1)) (p : Position) :
    (object (made fields)).member key p = .error (.unknownProperty key p) := by
  have hnone : lookup? key (made fields) = none := by
    rw [← List.mem_eraseDups, ← made_keys] at h
    unfold lookup?
    rw [Option.map_eq_none_iff, List.find?_eq_none]
    intro field hfield heq
    exact h (List.mem_map.2 ⟨field, hfield, by simpa using heq⟩)
  unfold member
  simp only [hnone]

/--
Of the given fields an object has each key once, in the order of their first fields, with the value
of the last field. Its length, its members and indexing by a text tell the same.
-/
structure KeepsLast (fields object : List (String × Value)) : Prop where
  keys : object.map (·.1) = (fields.map (·.1)).eraseDups
  mem_iff : ∀ key value, (key, value) ∈ object ↔ IsLast key value fields
  len : ∀ p, (Value.object object).len p =
    .ok (integer (Integer.ofLength (fields.map (·.1)).toFinset.card))
  present : ∀ key ∈ fields.map (·.1), ∃ value, IsLast key value fields ∧
    ∀ p, (Value.object object).member key p = .ok value ∧
      (Value.object object).index (text key) p = .ok value
  absent : ∀ key ∉ fields.map (·.1), ∀ p,
    (Value.object object).member key p = .error (.unknownProperty key p) ∧
      (Value.object object).index (text key) p = .error (.unknownProperty key p)

theorem keepsLast_made (fields : List (String × Value)) : KeepsLast fields (made fields) where
  keys := made_keys fields
  mem_iff _ _ := mem_made_iff
  len := len_made fields
  present key h := by
    obtain ⟨value, hlast⟩ := exists_isLast_of_mem h
    have hmember (p : Position) : (object (made fields)).member key p = .ok value :=
      ((fields_agree (nodup_made_keys fields) p).1 key value).2 (mem_made_iff.2 hlast)
    exact ⟨value, hlast, fun p => ⟨hmember p, hmember p⟩⟩
  absent key h p := ⟨member_made_of_notMem h p, member_made_of_notMem h p⟩

end Value

end Arrow
