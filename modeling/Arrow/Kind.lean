/-!
# Kinds of values and type names

Every value has a kind. A type name in a declaration stands for the kinds that it admits; the names
are those of the kinds and `any`.
-/

namespace Arrow

/-- What sort of thing a value is. -/
inductive Kind where
  | int
  | float
  | str
  | bool
  | null
  | array
  | obj
deriving DecidableEq

/-- The name of a kind in messages. -/
def Kind.name : Kind → String
  | int => "int"
  | float => "float"
  | str => "str"
  | bool => "bool"
  | null => "null"
  | array => "array"
  | obj => "obj"

/-- A type that a declaration may ask for. -/
inductive TypeTag where
  | kind (kind : Kind)
  | any
deriving DecidableEq

namespace TypeTag

/-- All types, in the order in which they are listed. -/
def all : List TypeTag :=
  [kind .int, kind .float, kind .str, kind .bool, kind .null, kind .array, kind .obj, any]

/-- The spelling of a type. -/
def name : TypeTag → String
  | kind k => k.name
  | any => "any"

/-- The type with the given spelling. -/
def ofName? (name : String) : Option TypeTag :=
  all.find? (·.name = name)

/-- Whether values of kind `k` have the type. A whole number is also a `float`. -/
def admits : TypeTag → Kind → Bool
  | any, _ => true
  | kind .float, k => k = .float || k = .int
  | kind expected, k => k = expected

theorem mem_all (tag : TypeTag) : tag ∈ all := by
  rcases tag with k | _ <;> first | (cases k <;> decide) | decide

theorem ofName?_name (tag : TypeTag) : ofName? tag.name = some tag := by
  rcases tag with k | _
  · cases k <;> rfl
  · rfl

end TypeTag

end Arrow
