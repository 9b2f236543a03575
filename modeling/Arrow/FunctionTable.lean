import Arrow.Program

/-!
# Function tables

The functions that a program has declared. A table is a list of declarations without a second one
of the same name, so each function is found under its own name.
-/

namespace Arrow

/-- The functions declared so far, the latest first. -/
structure FunctionTable where
  definitions : List Function

namespace FunctionTable

/-- The table without functions. -/
def empty : FunctionTable := ⟨[]⟩

/-- The function with the given name. -/
def find? (table : FunctionTable) (name : String) : Option Function :=
  table.definitions.find? (·.name = name)

/-- Adds a function whose name is not in the table. -/
def insert (table : FunctionTable) (definition : Function) : FunctionTable :=
  ⟨definition :: table.definitions⟩

@[simp]
theorem find?_empty (name : String) : empty.find? name = none := rfl

theorem find?_insert (table : FunctionTable) (definition : Function) (name : String) :
    (table.insert definition).find? name =
      if definition.name = name then some definition else table.find? name := by
  by_cases h : definition.name = name <;> simp [find?, insert, h]

theorem name_of_find? {table : FunctionTable} {name : String} {definition : Function}
    (h : table.find? name = some definition) : definition.name = name := by
  simpa using List.find?_some h

def isEmpty (table : FunctionTable) : Bool :=
  table.definitions.isEmpty

end FunctionTable

end Arrow
