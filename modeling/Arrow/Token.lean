import Arrow.Integer
import Arrow.Operator
import Arrow.Position

/-!
# Tokens

A token is a piece of the source text with what it stands for and where it begins.
-/

namespace Arrow

/-- A word or mark that introduces a construct. Declaration words carry the type named in them. -/
inductive Keyword where
  | var (type : Option String)
  | const (type : Option String)
  | fn (type : Option String)
  | ifWord
  | elifWord
  | elseWord
  | whileWord
  | forWord
  | arrow
deriving DecidableEq

/-- The value of a number literal: one with a point is a floating-point number. -/
inductive Number where
  | integer (n : Integer)
  | float (x : Float)
deriving DecidableEq

/-- What a token stands for. -/
inductive TokenKind where
  | keyword (word : Keyword)
  | identifier (name : String)
  | number (value : Number)
  | text (content : String)
  | operator (op : Operator)
  | punctuation (c : Char)
  | comment
  | endOfInput
deriving DecidableEq

/-- A token; its text is exactly what the source holds, and is empty at the end of input. -/
structure Token where
  kind : TokenKind
  text : String
  position : Position
deriving DecidableEq

namespace Token

/-- How messages refer to a token. -/
def describe (token : Token) : String :=
  if token.kind = .endOfInput then "end of input" else s!"'{token.text}'"

def isComment (token : Token) : Bool :=
  token.kind = .comment

end Token

end Arrow
