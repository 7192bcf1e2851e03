import LittleLisp.Toml.Number

/-!
# Strings in TOML

A string stands between double quotes, with escapes, or between single quotes, without. Three quotes
of a kind begin and end a string of several lines; a newline right after the first three is dropped,
and one or two more quotes right before the last three belong to the string.
-/

namespace LittleLisp.Toml

/-- The end of a line; a carriage return only ever comes before a newline. -/
def isLineEnd (c : Char) : Bool :=
  c == '\n' || c == '\r'

/-- A blank within a line. -/
def isBlank (c : Char) : Bool :=
  c == ' ' || c == '\t'

/-- The character of a number of hexadecimal digits; it has to be a scalar value. -/
def hexChar? (count : Nat) (cs : List Char) : Option (Char × List Char) :=
  let digits := cs.take count
  let value := digitsValue 16 digits
  if digits.length = count ∧ digits.all (fun c => (digitValue? 16 c).isSome) ∧
      value.isValidChar then
    some (Char.ofNat value, cs.drop count)
  else none

/-- What an escape stands for, after its backslash. -/
def escape? : List Char → Option (Char × List Char)
  | 'b' :: rest => some (Char.ofNat 8, rest)
  | 't' :: rest => some ('\t', rest)
  | 'n' :: rest => some ('\n', rest)
  | 'f' :: rest => some (Char.ofNat 12, rest)
  | 'r' :: rest => some ('\r', rest)
  | 'e' :: rest => some (Char.ofNat 27, rest)
  | '"' :: rest => some ('"', rest)
  | '\\' :: rest => some ('\\', rest)
  | 'x' :: rest => hexChar? 2 rest
  | 'u' :: rest => hexChar? 4 rest
  | 'U' :: rest => hexChar? 8 rest
  | _ => none

/-- Puts a character before the contents of a string. -/
def consChar (c : Char) (r : List Char × List Char) : List Char × List Char :=
  (c :: r.1, r.2)

/-- A string on one line, after its first quote. The fuel is at least the length of the text. -/
def lineString? (quote : Char) (escapes : Bool) :
    (fuel : Nat) → List Char → Option (List Char × List Char)
  | 0, _ => none
  | _, [] => none
  | fuel + 1, c :: rest =>
    if c = quote then some ([], rest)
    else if isLineEnd c then none
    else if escapes && c == '\\' then
      match escape? rest with
      | some (value, rest) => (lineString? quote escapes fuel rest).map (consChar value)
      | none => none
    else (lineString? quote escapes fuel rest).map (consChar c)

/-- A backslash at the end of a line takes away all blanks and line ends that follow it. -/
def lineContinuation? (cs : List Char) : Option (List Char) :=
  match cs.dropWhile isBlank with
  | c :: rest =>
    if isLineEnd c then some ((c :: rest).dropWhile fun c => isBlank c || isLineEnd c) else none
  | [] => none

/-- A fourth quote is too many: the text so far, from its end, ends in five quotes. Where there are
escapes, the five may follow a backslash. -/
def tooManyQuotes (quote : Char) (escapes : Bool) (reversed : List Char) : Bool :=
  reversed.take 5 == List.replicate 5 quote &&
    !(escapes && (reversed.drop 5).head? == some '\\')

/-- The characters of `cs` before the rest `rest`, put before the text so far, from its end. -/
def readUpTo (cs rest reversed : List Char) : List Char :=
  (cs.take (cs.length - rest.length)).reverse ++ reversed

/-- A string of several lines, after its first quotes. The text so far is given as it is written,
from its end. The fuel is at least the length of the text. -/
def textString? (quote : Char) (escapes : Bool) :
    (fuel : Nat) → (reversed : List Char) → List Char → Option (List Char × List Char)
  | 0, _, _ => none
  | _, _, [] => none
  | fuel + 1, reversed, c :: rest =>
    if c = quote ∧ rest.take 2 = [quote, quote] then
      if (rest.drop 2).head? ≠ some quote then some ([], rest.drop 2)
      else if tooManyQuotes quote escapes (quote :: quote :: quote :: reversed) then none
      else (textString? quote escapes fuel (c :: reversed) rest).map (consChar c)
    else if escapes && c == '\\' then
      match lineContinuation? rest with
      | some more => textString? quote escapes fuel (readUpTo rest more (c :: reversed)) more
      | none =>
        match escape? rest with
        | some (value, more) =>
          (textString? quote escapes fuel (readUpTo rest more (c :: reversed)) more).map
            (consChar value)
        | none => none
    else (textString? quote escapes fuel (c :: reversed) rest).map (consChar c)

/-- Drops a newline at the start of a text. -/
def dropNewline : List Char → List Char
  | '\n' :: rest => rest
  | '\r' :: '\n' :: rest => rest
  | cs => cs

/-- A string on one line, from its first quote on. -/
def lineQuoted? : List Char → Option (String × List Char)
  | c :: rest =>
    if c = '"' ∨ c = Char.ofNat 39 then
      (lineString? c (c == '"') (rest.length + 1) rest).map fun (cs, rest) =>
        (String.ofList cs, rest)
    else none
  | [] => none

/-- A string, from its first quote on. -/
def quoted? (cs : List Char) : Option (String × List Char) :=
  match cs with
  | a :: b :: c :: rest =>
    if (a = '"' ∨ a = Char.ofNat 39) ∧ a = b ∧ b = c then
      let text := dropNewline rest
      (textString? a (a == '"') (text.length + 1) [] text).map fun (cs, rest) =>
        (String.ofList cs, rest)
    else lineQuoted? cs
  | _ => lineQuoted? cs

end LittleLisp.Toml
