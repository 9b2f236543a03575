import Arrow.Token

/-!
# Lexemes

How a token can begin: with a spelling from a fixed table, with a name or with a number.
`Lexeme.front?` takes the longest beginning, and among equally long ones the table's.
-/

namespace Arrow

/-- What the beginning of a token stands for. -/
inductive Lexeme where
  | keyword (word : Keyword)
  | operator (op : Operator)
  | punctuation (c : Char)
  | quote
  | lineComment
  | blockComment
  | name
  | number
deriving DecidableEq

namespace Lexeme

/-- The fixed spellings. -/
def table : List (String × Lexeme) :=
  [("if", keyword .ifWord), ("elif", keyword .elifWord), ("else", keyword .elseWord),
    ("while", keyword .whileWord), ("for", keyword .forWord), ("->", keyword .arrow),
    ("\"", quote),
    ("<==", operator .assign), ("<:", operator .typeOpen), (":>", operator .typeClose),
    ("<+>", operator .add), ("<->", operator .sub), ("<*>", operator .mul), ("</>", operator .div),
    ("+", operator .add), ("-", operator .sub), ("*", operator .mul), ("/", operator .div),
    ("<&&>", operator .and), ("<||>", operator .or), ("<!!>", operator .not),
    ("&&", operator .and), ("||", operator .or), ("!!", operator .not),
    ("<=>", operator .equal), ("<!=>", operator .notEqual),
    ("<>>", operator .greater), ("<<>", operator .less),
    ("<>=>", operator .greaterEqual), ("<<=>", operator .lessEqual),
    ("==", operator .equal), ("!=", operator .notEqual),
    (">", operator .greater), ("<", operator .less),
    (">=", operator .greaterEqual), ("<=", operator .lessEqual),
    ("(", punctuation '('), (")", punctuation ')'), ("\x7b", punctuation '\x7b'),
    ("\x7d", punctuation '\x7d'), ("[", punctuation '['), ("]", punctuation ']'),
    (",", punctuation ','), (".", punctuation '.'), (":", punctuation ':'), (";", punctuation ';'),
    ("::", lineComment), ("::>", blockComment)]

/-- The fixed spellings as characters. -/
def spellings : List (List Char × Lexeme) :=
  table.map fun (spelling, lexeme) => (spelling.toList, lexeme)

def isNameStart (c : Char) : Bool :=
  c.isAlpha || c = '_'

def isNamePart (c : Char) : Bool :=
  c.isAlphanum || c = '_'

/-- The longest name at the front of `source`. -/
def nameFront (source : List Char) : List Char :=
  if source.head?.any isNameStart then source.takeWhile isNamePart else []

/-- The digits behind a point at the front of a text. -/
def fractionFront : List Char → List Char
  | '.' :: rest => rest.takeWhile Char.isDigit
  | _ => []

/-- The longest number at the front of `source`: digits, then possibly a point and digits. -/
def numberFront (source : List Char) : List Char :=
  let whole := source.takeWhile Char.isDigit
  let fraction := fractionFront (source.dropWhile Char.isDigit)
  if whole.isEmpty || fraction.isEmpty then whole else whole ++ '.' :: fraction

/-- Everything that `source` can begin with. -/
def fronts (source : List Char) : List (List Char × Lexeme) :=
  spellings.filter (·.1.isPrefixOf source) ++
    [(nameFront source, name), (numberFront source, number)]

/-- The longer of two beginnings, and the first of two equally long ones. -/
def longer (best other : List Char × Lexeme) : List Char × Lexeme :=
  if best.1.length < other.1.length then other else best

/-- The longest beginning of `source`, if there is one. -/
def front? (source : List Char) : Option (List Char × Lexeme) :=
  match (fronts source).foldl longer ([], name) with
  | ([], _) => none
  | best => some best

end Lexeme

end Arrow
