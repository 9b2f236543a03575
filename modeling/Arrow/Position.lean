/-!
# Positions in a source text

A position is a line and a column, both counted from one, where columns count characters.
`Position.after` is the position behind a run of characters.
-/

namespace Arrow

/-- A place in a source text. -/
structure Position where
  line : Nat
  column : Nat
deriving DecidableEq

namespace Position

/-- The position of the first character of a text. -/
def start : Position := ⟨1, 1⟩

/-- Stands in for a position where there is no token to take one from. -/
def unknown : Position := ⟨0, 0⟩

/-- The position of the character that follows `c`. -/
def next (p : Position) (c : Char) : Position :=
  if c = '\n' then ⟨p.line + 1, 1⟩ else ⟨p.line, p.column + 1⟩

/-- The position behind `text`, when `text` begins at `p`. -/
def after (p : Position) (text : List Char) : Position :=
  text.foldl next p

/-- The wording of a position in messages. -/
def render (p : Position) : String :=
  s!"line {p.line}, column {p.column}"

@[simp]
theorem after_nil (p : Position) : p.after [] = p := rfl

@[simp]
theorem after_cons (p : Position) (c : Char) (text : List Char) :
    p.after (c :: text) = (p.next c).after text := rfl

theorem after_append (p : Position) (first second : List Char) :
    p.after (first ++ second) = (p.after first).after second :=
  List.foldl_append

end Position

end Arrow
