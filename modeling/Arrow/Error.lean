import Arrow.Arity
import Arrow.Integer
import Arrow.Kind
import Arrow.Operator
import Arrow.Position

/-!
# Errors

The causes for which a program is refused or stops. Each kind of error has a position and a
message; only a missing entry point has no position.
-/

namespace Arrow

/-! ## Reading tokens -/

/-- Why a text is not a sequence of tokens. -/
inductive LexError where
  | unexpectedCharacter (character : Char) (position : Position)
  | unterminatedString (position : Position)
  | invalidMarker (text : String) (position : Position)
  | numberTooLarge (text : String) (position : Position)
deriving DecidableEq

namespace LexError

def position : LexError → Position
  | unexpectedCharacter _ p => p
  | unterminatedString p => p
  | invalidMarker _ p => p
  | numberTooLarge _ p => p

def message : LexError → String
  | unexpectedCharacter c p => s!"Unexpected character '{c}' at {p.render}"
  | unterminatedString p => s!"Unterminated string literal starting at {p.render}"
  | invalidMarker text p => s!"Invalid annotation '{text}' at {p.render}"
  | numberTooLarge text p => s!"Number literal '{text}' is too large at {p.render}"

end LexError

/-! ## Reading programs -/

/-- What the grammar allows at a place. -/
inductive Expectation where
  | statement
  | expression
  | identifier
  | variableName
  | propertyName
  | word (text : String)
  | operator (op : Operator)
  | punctuation (c : Char)
  /-- What may follow the name at the start of a statement. -/
  | afterName
  /-- What may follow an item of a list that ends in `closing`. -/
  | afterItem (closing : Char)
deriving DecidableEq

/-- The wording of an expectation in messages. -/
def Expectation.render : Expectation → String
  | statement => "statement"
  | expression => "expression"
  | identifier => "identifier"
  | variableName => "variable name"
  | propertyName => "property name"
  | word text => s!"'{text}'"
  | operator op => s!"'{op.lexeme}'"
  | punctuation c => s!"'{c}'"
  | afterName => "'<==', '<:' or '('"
  | afterItem closing => s!"',' or '{closing}'"

/-- Why a sequence of tokens is not a program. -/
inductive ParseError where
  | expected (what : Expectation) (found : String) (position : Position)
  | duplicateParameter (name : String) (position : Position)
deriving DecidableEq

namespace ParseError

def position : ParseError → Position
  | expected _ _ p => p
  | duplicateParameter _ p => p

def message : ParseError → String
  | expected what found p => s!"Expected {what.render}, found {found} at {p.render}"
  | duplicateParameter name p =>
    s!"Expected unique parameter names, found '{name}' twice at {p.render}"

end ParseError

/-! ## Running programs -/

/-- How the types of values go wrong. -/
inductive TypeFault where
  | unknownType (name : String)
  | mismatch (subject : String) (expected : TypeTag) (found : Kind)
  | operands (op : Operator) (left right : Kind)
  | indexing (target index : Kind)
  | lengthOf (kind : Kind)
deriving DecidableEq

def TypeFault.render : TypeFault → String
  | unknownType name => s!"Unknown type '{name}'"
  | mismatch subject expected found =>
    s!"{subject} expects {expected.name}, found {found.name}"
  | operands op left right =>
    s!"Cannot apply '{op.lexeme}' to {left.name} and {right.name}"
  | indexing target index => s!"Cannot index {target.name} with {index.name}"
  | lengthOf kind => s!"Cannot take the length of {kind.name}"

/-- Why there is no entry point to call. -/
inductive EntryFault where
  | absent
  | parameters (count : Nat)
deriving DecidableEq

def EntryFault.render : EntryFault → String
  | absent => "no function named 'main' was declared"
  | parameters count => s!"'main' must take no parameters, but declares {count}"

/-- Why a running program stops. -/
inductive RuntimeError where
  | typeError (fault : TypeFault) (position : Position)
  | undefinedVariable (name : String) (position : Position)
  | undefinedFunction (name : String) (position : Position)
  | constReassignment (name : String) (position : Position)
  | missingEntryPoint (fault : EntryFault)
  | unknownOperator (op : Operator) (position : Position)
  | argumentCount (name : String) (expected : Arity) (found : Nat) (position : Position)
  | stackOverflow (name : String) (limit : Nat) (position : Position)
  | functionAlreadyDefined (name : String) (position : Position)
  | builtinRedefinition (name : String) (position : Position)
  | returnOutsideFunction (position : Position)
  | indexOutOfBounds (index : Integer) (length : Nat) (position : Position)
  | unknownProperty (property : String) (position : Position)
  | io (failure : String) (position : Position)
deriving DecidableEq

namespace RuntimeError

def position? : RuntimeError → Option Position
  | missingEntryPoint _ => none
  | typeError _ p => p
  | undefinedVariable _ p => p
  | undefinedFunction _ p => p
  | constReassignment _ p => p
  | unknownOperator _ p => p
  | argumentCount _ _ _ p => p
  | stackOverflow _ _ p => p
  | functionAlreadyDefined _ p => p
  | builtinRedefinition _ p => p
  | returnOutsideFunction p => p
  | indexOutOfBounds _ _ p => p
  | unknownProperty _ p => p
  | io _ p => p

def message : RuntimeError → String
  | typeError fault p => s!"Type error at {p.render}: {fault.render}"
  | undefinedVariable name p => s!"Undefined variable '{name}' at {p.render}"
  | undefinedFunction name p => s!"Undefined function '{name}' at {p.render}"
  | constReassignment name p =>
    s!"Cannot reassign constant variable '{name}' at {p.render}"
  | missingEntryPoint fault => s!"Missing entry point: {fault.render}"
  | unknownOperator op p => s!"Unknown operator '{op.lexeme}' at {p.render}"
  | argumentCount name expected found p =>
    s!"Function '{name}' expects {expected.render} argument(s) but received {found} at {p.render}"
  | stackOverflow name limit p =>
    s!"Stack overflow calling '{name}' at {p.render}: more than {limit} nested calls"
  | functionAlreadyDefined name p => s!"Function '{name}' is already defined at {p.render}"
  | builtinRedefinition name p => s!"Cannot redefine built-in function '{name}' at {p.render}"
  | returnOutsideFunction p => s!"Return statement outside of a function at {p.render}"
  | indexOutOfBounds index length p =>
    s!"Index {index.toInt} out of bounds for length {length} at {p.render}"
  | unknownProperty property p => s!"Unknown property '{property}' at {p.render}"
  | io failure p => s!"I/O error at {p.render}: {failure}"

end RuntimeError

/-! ## All errors -/

/-- Why a source text has no result. -/
inductive Error where
  | lex (cause : LexError)
  | parse (cause : ParseError)
  | runtime (cause : RuntimeError)
deriving DecidableEq

namespace Error

def position? : Error → Option Position
  | lex cause => cause.position
  | parse cause => cause.position
  | runtime cause => cause.position?

def message : Error → String
  | lex cause => cause.message
  | parse cause => cause.message
  | runtime cause => cause.message

end Error

end Arrow
