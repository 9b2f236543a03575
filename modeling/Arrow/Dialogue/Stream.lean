import Arrow.Dialogue.Console

/-!
# Streams of bytes as a console

Input that is a sequence of bytes is read line by line. A line ends with a newline byte or with the
input, its bytes have to be UTF-8, and all line ends at its end are removed.
-/

namespace Arrow

/-- The bytes that are still to be read, and the text that has been written. -/
structure Stream where
  input : List UInt8
  output : String

namespace Stream

def newline : UInt8 := 10

/-- The bytes up to the first newline and with it, and the bytes behind. -/
def splitLine : List UInt8 → List UInt8 × List UInt8
  | [] => ([], [])
  | byte :: input =>
    if byte = newline then ([byte], input)
    else
      let (line, rest) := splitLine input
      (byte :: line, rest)

/-- The line without the newlines and carriage returns at its end. -/
def trimLine (line : String) : String :=
  String.ofList (line.toList.reverse.dropWhile fun c => c = '\n' || c = '\r').reverse

/-- The text of the bytes of a line, if they are UTF-8. -/
def decodeLine (bytes : List UInt8) : Except String (Option String) :=
  match String.fromUTF8? ⟨bytes.toArray⟩ with
  | some line => .ok (some (trimLine line))
  | none => .error "stream did not contain valid UTF-8"

end Stream

instance : Console Stream where
  write text console := (.ok (), { console with output := console.output ++ text })
  readLine console :=
    match Stream.splitLine console.input with
    | ([], _) => (.ok none, console)
    | (line, rest) => (Stream.decodeLine line, { console with input := rest })

end Arrow
