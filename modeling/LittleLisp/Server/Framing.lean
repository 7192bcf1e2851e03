import LittleLisp.Json.Printer
import LittleLisp.Json.Reader
import LittleLisp.Source
import LittleLisp.Text.Case

/-!
# Messages on a stream

On a stream, a message comes after a head of lines that ends with an empty line. One of these lines
gives the number of bytes of the message.
-/

namespace LittleLisp.Server

/-- The name of the line that gives the length. -/
def lengthField : String := "Content-Length"

/-- What stands before the colon of a head line, and after it without blanks around. -/
def splitField (line : String) : List Char × List Char :=
  let cs := line.toList
  let value := ((cs.dropWhile (· ≠ ':')).drop 1).dropWhile Json.isBlank
  (cs.takeWhile (· ≠ ':'), (value.reverse.dropWhile Json.isBlank).reverse)

/-- The number of bytes that a head line gives. -/
def lengthOf? (line : String) : Option Nat :=
  let (name, value) := splitField line
  if Text.sameFolded (String.ofList name) lengthField ∧ value ≠ [] ∧ value.all Json.isDigit then
    some (Json.digitsValue value)
  else none

/-- A head line that ends the head. -/
def endsHead (line : String) : Bool :=
  line.toList.all Json.isBlank

/-- A message with its head. -/
def framed (j : Json) : String :=
  let text := j.text
  lengthField ++ ": " ++ toString text.utf8ByteSize ++ "\r\n\r\n" ++ text

/-- The message of some bytes; a text that is not JSON is no object at least. -/
def messageOf (bytes : List UInt8) : Json :=
  (Json.parse? (Source.ofBytes bytes).toText).getD .null

end LittleLisp.Server
