import Arrow.Token.Lexeme

/-!
# Markers

A declaration begins with a marker: one or two words between angle brackets, such as `<const int>` or
`<bool fn>`. An opening bracket that no such words follow is a comparison.
-/

namespace Arrow

/-- The words of a marker behind its opening bracket. -/
structure Marker where
  first : List Char
  /-- Empty when there is only one word. -/
  second : List Char
  /-- The number of characters up to the closing bracket and with it. -/
  length : Nat

namespace Marker

def isGap (c : Char) : Bool :=
  c = ' ' || c = '\t'

/-- Reads one or two words and a closing bracket from behind an opening bracket. -/
def ofChars? (source : List Char) : Option Marker :=
  let first := Lexeme.nameFront source
  let rest := source.drop first.length
  let gap := rest.takeWhile isGap
  let second := Lexeme.nameFront (rest.drop gap.length)
  let rest := rest.drop (gap.length + second.length)
  let last := rest.takeWhile isGap
  match first, rest.drop last.length with
  | _ :: _, '>' :: _ =>
    some ⟨first, second, first.length + gap.length + second.length + last.length + 1⟩
  | _, _ => none

/-- The words that name no type. -/
def reserved : List String :=
  ["var", "const", "fn", "if", "elif", "else", "while", "for"]

/-- The keyword that the words of a marker make up. -/
def keyword? (first second : String) : Option Keyword :=
  let isType (word : String) : Bool := !reserved.contains word
  if second = "" then
    if first = "var" then some (.var none)
    else if first = "const" then some (.const none)
    else if first = "fn" then some (.fn none)
    else if isType first then some (.var first)
    else none
  else if first = "var" && isType second then some (.var second)
  else if first = "const" && isType second then some (.const second)
  else if second = "fn" && isType first then some (.fn first)
  else none

end Marker

end Arrow
