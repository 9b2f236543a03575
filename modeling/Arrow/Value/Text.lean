import Arrow.Decimal.Layout
import Arrow.Value

/-!
# Texts of values

How values are written. Texts stand in quotes only inside arrays and objects, and nothing in them
is escaped.
-/

namespace Arrow

/-- Floating-point numbers are written out in full, and whole ones without a fraction. -/
def Layout.plain : Layout where
  infinity := "Infinity"
  whole := ""
  isPositional := fun _ => true

namespace Value

/-- The text of a value inside another one, where `plain` is its text outside. -/
def nested (value : Value) (plain : String) : String :=
  match value with
  | text content => "\"" ++ content ++ "\""
  | _ => plain

mutual

/-- The text of a value. -/
def render : Value → String
  | integer n => toString n.toInt
  | float x => Layout.plain.render x
  | text content => content
  | bool b => toString b
  | null => "null"
  | array elements => "[" ++ ", ".intercalate (renderElements elements) ++ "]"
  | object [] => "\x7b\x7d"
  | object (field :: fields) =>
    "\x7b " ++ ", ".intercalate (renderFields (field :: fields)) ++ " \x7d"

/-- The texts of the elements of an array. -/
def renderElements : List Value → List String
  | [] => []
  | value :: values => value.nested (render value) :: renderElements values

/-- The texts of the fields of an object. -/
def renderFields : List (String × Value) → List String
  | [] => []
  | (key, value) :: fields => (key ++ ": " ++ value.nested (render value)) :: renderFields fields

end

/-- The texts of values with blanks between them. -/
def join (values : List Value) : String :=
  " ".intercalate (values.map render)

end Value

end Arrow
