import Arrow.Decimal.Layout
import Arrow.Outline
import Arrow.Text.Quoted
import Arrow.Token

/-!
# Outlines of tokens

How tokens are listed: the position, the kind and the text of each on a line.
-/

namespace Arrow

/-- Very large and very small numbers are set with a power of ten, whole ones with a fraction. -/
def Layout.detailed : Layout where
  infinity := "inf"
  whole := ".0"
  isPositional := fun place => -3 ≤ place && place ≤ 16

namespace Outline

def text (content : String) : Outline :=
  atom (Text.quote content)

def int (n : Integer) : Outline :=
  atom (toString n.toInt)

def float (x : Float) : Outline :=
  atom (Layout.detailed.render x)

def ofOperator (op : Operator) : Outline :=
  atom <| match op with
    | .assign => "Assign"
    | .typeOpen => "TypeOpen"
    | .typeClose => "TypeClose"
    | .add => "Add"
    | .sub => "Sub"
    | .mul => "Mul"
    | .div => "Div"
    | .and => "And"
    | .or => "Or"
    | .not => "Not"
    | .equal => "Equal"
    | .notEqual => "NotEqual"
    | .greater => "Greater"
    | .less => "Less"
    | .greaterEqual => "GreaterEqual"
    | .lessEqual => "LessEqual"

def ofKeyword (word : Keyword) : Outline :=
  match word with
  | .var type => group "Var" [option (type.map text)]
  | .const type => group "Const" [option (type.map text)]
  | .fn type => group "Fn" [option (type.map text)]
  | .ifWord => atom "If"
  | .elifWord => atom "Elif"
  | .elseWord => atom "Else"
  | .whileWord => atom "While"
  | .forWord => atom "For"
  | .arrow => atom "Return"

def ofTokenKind (kind : TokenKind) : Outline :=
  match kind with
  | .keyword word => group "Keyword" [ofKeyword word]
  | .identifier name => group "Identifier" [text name]
  | .number (.integer n) => group "Number" [group "Integer" [int n]]
  | .number (.float x) => group "Number" [group "Float" [float x]]
  | .text content => group "String" [text content]
  | .operator op => group "Operator" [ofOperator op]
  | .punctuation c => group "Punctuation" [atom s!"'{c}'"]
  | .comment => atom "Comment"
  | .endOfInput => atom "Eof"

end Outline

/-- The line of a list of tokens. -/
def Token.entry (token : Token) : String :=
  let p := token.position
  s!"  {p.line}:{p.column} {(Outline.ofTokenKind token.kind).inline} {Text.quote token.text}"

end Arrow
