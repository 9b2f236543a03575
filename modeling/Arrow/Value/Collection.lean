import Arrow.Error
import Arrow.Value

/-!
# Arrays, texts and objects

Selection by index and by name, lengths, and the making of objects. A text is indexed by characters,
and an index counts from zero.
-/

namespace Arrow

namespace Value

/-- The value of the first field with the given key. -/
def lookup? (key : String) (fields : List (String × Value)) : Option Value :=
  (fields.find? (·.1 = key)).map (·.2)

/-- Sets the value of a key, in the place that the key has already or else behind all others. -/
def setField (key : String) (value : Value) : List (String × Value) → List (String × Value)
  | [] => [(key, value)]
  | (k, v) :: fields => if k = key then (k, value) :: fields else (k, v) :: setField key value fields

theorem lookup?_setField (key other : String) (value : Value) (fields : List (String × Value)) :
    lookup? other (setField key value fields) =
      if key = other then some value else lookup? other fields := by
  induction fields with
  | nil => by_cases h : key = other <;> simp [setField, lookup?, h]
  | cons field fields ih =>
    obtain ⟨held, _⟩ := field
    by_cases hheld : held = key
    · subst hheld
      by_cases h : held = other <;> simp [setField, lookup?, h]
    · by_cases h : held = other
      · subst h
        simp [setField, lookup?, hheld, Ne.symm hheld]
      · simpa [setField, lookup?, hheld, h] using ih

/-- The object with the given fields, where a later value of a key replaces an earlier one. -/
def ofFields (fields : List (String × Value)) : Value :=
  object (fields.foldl (fun made (key, value) => setField key value made) [])

/-- The number of elements of an array, of characters of a text or of fields of an object. -/
def length? : Value → Option Nat
  | array elements => some elements.length
  | text content => some content.length
  | object fields => some fields.length
  | _ => none

/-- The length of a value as a value. -/
def len (value : Value) (p : Position) : Except RuntimeError Value :=
  match value.length? with
  | some n => .ok (integer (Integer.ofLength n))
  | none => .error (.typeError (.lengthOf value.kind) p)

/-- Selects a property. Arrays and texts have one, their length. -/
def member (target : Value) (property : String) (p : Position) : Except RuntimeError Value :=
  let found := match target with
    | object fields => lookup? property fields
    | array elements =>
      if property = "length" then some (integer (Integer.ofLength elements.length)) else none
    | text content =>
      if property = "length" then some (integer (Integer.ofLength content.length)) else none
    | _ => none
  match found with
  | some value => .ok value
  | none => .error (.unknownProperty property p)

/-- Selects the thing at an index from `things`. -/
def select {α : Type} (things : List α) (index : Integer) (p : Position) : Except RuntimeError α :=
  match (Integer.toIndex? index things.length).bind (things[·]?) with
  | some thing => .ok thing
  | none => .error (.indexOutOfBounds index things.length p)

/-- Selects an element of an array, a character of a text or a field of an object. -/
def index (target index : Value) (p : Position) : Except RuntimeError Value :=
  match target, index with
  | array elements, integer i => select elements i p
  | text content, integer i =>
    (select content.toList i p).map fun c => text (String.ofList [c])
  | object fields, text key => member (object fields) key p
  | _, _ => .error (.typeError (.indexing target.kind index.kind) p)

end Value

end Arrow
