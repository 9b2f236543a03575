import Arrow.Error

/-!
# Remedies

The advice that goes with an error. It is chosen by the first of several phrases that occurs in the
message of the error.
-/

namespace Arrow

/-- Whether `phrase` occurs somewhere in `text`. -/
def occurs (phrase : List Char) : List Char → Bool
  | [] => phrase.isEmpty
  | c :: text => phrase.isPrefixOf (c :: text) || occurs phrase text

/-- Phrases of messages and the advice for them. -/
def remedies : List (String × String) :=
  [("Expected", "Check the syntax near the indicated line and column."),
    ("Undefined variable", "Ensure the variable is declared before use."),
    ("Cannot reassign constant variable", "Avoid reassigning a constant variable."),
    ("Stack overflow",
      "Make sure every recursive function reaches a case that returns without calling itself."),
    ("Missing entry point",
      "Declare a function `<fn> main() \x7b ... \x7d` that takes no parameters.")]

/-- The advice for a message. -/
def remedyFor (message : String) : String :=
  match remedies.find? fun (phrase, _) => occurs phrase.toList message.toList with
  | some (_, advice) => advice
  | none => "Refer to the documentation for more details."

/-- The advice that goes with an error. -/
def Error.remedy (e : Error) : String :=
  remedyFor e.message

end Arrow
