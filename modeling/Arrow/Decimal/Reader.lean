import Arrow.Decimal
import Arrow.Text.Space

/-!
# Reading numbers

The grammar of numbers in texts: an optional sign, then an infinity, a NaN, or digits with an
optional point and an optional power of ten. At least one digit stands next to the point.
-/

namespace Arrow.Decimal

/-- The number that a run of decimal digits denotes. -/
def natOfDigits (digits : List Char) : Nat :=
  digits.foldl (fun n c => 10 * n + (c.toNat - '0'.toNat)) 0

/-- The decimal with the given digits in front of the point and behind it. -/
def ofDigits (whole fraction : List Char) : Decimal :=
  ⟨natOfDigits (whole ++ fraction), -fraction.length⟩

/-- Reads a power of ten: nothing, or a letter, an optional sign and digits. -/
def exponent? : List Char → Option Int
  | [] => some 0
  | c :: text =>
    if c.toLower = 'e' then
      let (negative, digits) := match text with
        | '-' :: digits => (true, digits)
        | '+' :: digits => (false, digits)
        | digits => (false, digits)
      if digits.isEmpty || !digits.all Char.isDigit then none
      else if negative then some (-natOfDigits digits)
      else some (natOfDigits digits)
    else none

/-- Reads digits with an optional point and an optional power of ten. -/
def unsigned? (text : List Char) : Option Decimal :=
  let whole := text.takeWhile Char.isDigit
  let rest := text.dropWhile Char.isDigit
  let (fraction, rest) := match rest with
    | '.' :: rest => (rest.takeWhile Char.isDigit, rest.dropWhile Char.isDigit)
    | rest => ([], rest)
  if whole.isEmpty && fraction.isEmpty then none
  else do
    let d := ofDigits whole fraction
    let e ← exponent? rest
    return ⟨d.digits, d.exponent + e⟩

/-- Reads a number without a sign; words are read in any case. -/
def magnitude? (text : List Char) : Option Float :=
  match text.map Char.toLower with
  | ['i', 'n', 'f'] => some (1.0 / 0.0)
  | ['i', 'n', 'f', 'i', 'n', 'i', 't', 'y'] => some (1.0 / 0.0)
  | ['n', 'a', 'n'] => some (0.0 / 0.0)
  | _ => (unsigned? text).map toFloat

/-- Reads a number that makes up the whole of `text`. -/
def float? : List Char → Option Float
  | '+' :: text => magnitude? text
  | '-' :: text => (magnitude? text).map (-·)
  | text => magnitude? text

end Arrow.Decimal

namespace Arrow.Text

/-- The number that a text denotes, white space at its ends aside. -/
def number? (text : String) : Option Float :=
  Decimal.float? (trim text.toList)

end Arrow.Text
