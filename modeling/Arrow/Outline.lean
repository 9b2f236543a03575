/-!
# Outlines

An outline is a tree of named parts. It can be set on one line, or on as many lines as it has parts,
where the parts of a part are indented and every part ends in a comma.
-/

namespace Arrow

/-- A tree of named parts. -/
inductive Outline where
  | atom (text : String)
  | group (name : String) (parts : List Outline)
  | record (name : String) (fields : List (String × Outline))
  | list (items : List Outline)

namespace Outline

/-- A value that may be absent. -/
def option (value : Option Outline) : Outline :=
  match value with
  | none => atom "None"
  | some value => group "Some" [value]

mutual

/-- The outline on one line. -/
def inline : Outline → String
  | atom text => text
  | group name parts => name ++ "(" ++ ", ".intercalate (inlineParts parts) ++ ")"
  | record name fields => name ++ " \x7b " ++ ", ".intercalate (inlineFields fields) ++ " \x7d"
  | list items => "[" ++ ", ".intercalate (inlineParts items) ++ "]"

def inlineParts : List Outline → List String
  | [] => []
  | part :: parts => part.inline :: inlineParts parts

def inlineFields : List (String × Outline) → List String
  | [] => []
  | (name, part) :: fields => (name ++ ": " ++ part.inline) :: inlineFields fields

end

/-- The start of a line at a depth of nesting. -/
def indent (depth : Nat) : String :=
  String.ofList (List.replicate (4 * depth) ' ')

mutual

/-- The outline on several lines, of which all but the first are indented by `depth`. -/
def block (depth : Nat) : Outline → String
  | atom text => text
  | group name parts => name ++ "(\n" ++ blockParts (depth + 1) parts ++ indent depth ++ ")"
  | record name fields =>
    name ++ " \x7b\n" ++ blockFields (depth + 1) fields ++ indent depth ++ "\x7d"
  | list [] => "[]"
  | list (item :: items) =>
    "[\n" ++ blockParts (depth + 1) (item :: items) ++ indent depth ++ "]"

def blockParts (depth : Nat) : List Outline → String
  | [] => ""
  | part :: parts => indent depth ++ part.block depth ++ ",\n" ++ blockParts depth parts

def blockFields (depth : Nat) : List (String × Outline) → String
  | [] => ""
  | (name, part) :: fields =>
    indent depth ++ name ++ ": " ++ part.block depth ++ ",\n" ++ blockFields depth fields

end

end Outline

end Arrow
