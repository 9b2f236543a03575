import Arrow.Decimal.Reader
import Arrow.Error
import Arrow.Token.Marker

/-!
# From text to tokens

`tokenize` splits a source text into tokens and drops the blanks between them. The last token is
always the end of input. `Scan.ofChars` reads one token; it takes at least one character, so that
the splitting ends.
-/

namespace Arrow

/-- The blanks between tokens. -/
def isBlank (c : Char) : Bool :=
  c = ' ' || c = '\t' || c = '\r' || c = '\n' || c = '\x0c'

/-- What a number literal denotes, unless it is too large for an integer. -/
def Number.ofChars? (text : List Char) : Option Number :=
  let whole := text.takeWhile Char.isDigit
  match text.dropWhile Char.isDigit with
  | '.' :: fraction => some (.float (Decimal.ofDigits whole fraction).toFloat)
  | _ =>
    (Integer.ofInt? (Decimal.natOfDigits whole)).map .integer

/-- The number of characters of a block comment behind its opening mark. -/
def blockLength : List Char → Nat
  | [] => 0
  | '<' :: ':' :: ':' :: _ => 3
  | _ :: rest => blockLength rest + 1

/-- What the token at the front of a text stands for, and its number of characters. -/
structure Scan where
  kind : TokenKind
  length : Nat
  pos : 0 < length

namespace Scan

/-- A token that is the beginning `front` and `more` characters behind it. -/
def extend (kind : TokenKind) (front : List Char) (h : front ≠ []) (more : Nat) : Scan :=
  ⟨kind, front.length + more, Nat.add_pos_left (List.length_pos_iff.2 h) more⟩

/-- Reads the less-than sign `front`, or the marker that it opens. -/
def ofLess (p : Position) (front : List Char) (h : front ≠ []) (rest : List Char) :
    Except LexError Scan :=
  match Marker.ofChars? rest with
  | none => .ok (extend (.operator .less) front h 0)
  | some words =>
    match Marker.keyword? (.ofList (front.tail ++ words.first)) (.ofList words.second) with
    | some word => .ok (extend (.keyword word) front h words.length)
    | none => .error (.invalidMarker (.ofList (front ++ rest.take words.length)) p)

/-- Reads the token that begins with `front` and goes on in `rest`. -/
def ofLexeme (p : Position) (lexeme : Lexeme) (front : List Char) (h : front ≠ [])
    (rest : List Char) : Except LexError Scan :=
  match lexeme with
  | .keyword word => .ok (extend (.keyword word) front h 0)
  | .operator .less => ofLess p front h rest
  | .operator op => .ok (extend (.operator op) front h 0)
  | .punctuation c => .ok (extend (.punctuation c) front h 0)
  | .name => .ok (extend (.identifier (.ofList front)) front h 0)
  | .number =>
    match Number.ofChars? front with
    | some value => .ok (extend (.number value) front h 0)
    | none => .error (.numberTooLarge (.ofList front) p)
  | .quote =>
    let content := rest.takeWhile (· ≠ '"')
    match rest.dropWhile (· ≠ '"') with
    | [] => .error (.unterminatedString p)
    | _ :: _ => .ok (extend (.text (.ofList content)) front h (content.length + 1))
  | .lineComment => .ok (extend .comment front h (rest.takeWhile (· ≠ '\n')).length)
  | .blockComment => .ok (extend .comment front h (blockLength rest))

/-- Reads the token at the front of `c :: source`, which begins at `p`. -/
def ofChars (p : Position) (c : Char) (source : List Char) : Except LexError Scan :=
  match Lexeme.front? (c :: source) with
  | some (d :: front, lexeme) =>
    ofLexeme p lexeme (d :: front) (List.cons_ne_nil d front) (source.drop front.length)
  | _ => .error (.unexpectedCharacter c p)

end Scan

/-- Splits `source`, which begins at `p`, into tokens. -/
def tokenizeFrom (p : Position) (source : List Char) : Except LexError (List Token) :=
  match source with
  | [] => .ok [⟨.endOfInput, "", p⟩]
  | c :: rest =>
    if isBlank c then tokenizeFrom (p.next c) rest
    else
      match Scan.ofChars p c rest with
      | .error cause => .error cause
      | .ok scan =>
        let text := (c :: rest).take scan.length
        match tokenizeFrom (p.after text) ((c :: rest).drop scan.length) with
        | .error cause => .error cause
        | .ok tokens => .ok (⟨scan.kind, .ofList text, p⟩ :: tokens)
termination_by source.length
decreasing_by
  · simp
  · have := scan.pos
    simp only [List.length_drop, List.length_cons]
    omega

/-- Splits a source text into tokens. -/
def tokenize (source : String) : Except LexError (List Token) :=
  tokenizeFrom .start source.toList

end Arrow
