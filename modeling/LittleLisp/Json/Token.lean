import LittleLisp.Json

/-!
# The tokens of JSON

A text in JSON is a sequence of tokens with blanks between them. A string is between double quotes
and has no control characters; half of a surrogate pair that is written alone is read as U+FFFD.
-/

namespace LittleLisp.Json

/-- A token of JSON. -/
inductive Token where
  | openArr
  | closeArr
  | openObj
  | closeObj
  | comma
  | colon
  | str (value : String)
  /-- A value that has no parts: a number or a word. -/
  | plain (value : Json)
deriving Repr

/-- A blank of JSON. -/
def isBlank (c : Char) : Bool :=
  c == ' ' || c == '\t' || c == '\n' || c == '\r'

/-- A decimal digit. -/
def isDigit (c : Char) : Bool :=
  decide ('0' ≤ c) && decide (c ≤ '9')

/-- The value of a hexadecimal digit. -/
def hexDigit? (c : Char) : Option Nat :=
  let n := c.toNat
  if isDigit c then some (n - 48)
  else if 97 ≤ n ∧ n ≤ 102 then some (n - 87)
  else if 65 ≤ n ∧ n ≤ 70 then some (n - 55)
  else none

/-- The value of four hexadecimal digits. -/
def fourDigits? : List Char → Option Nat
  | [a, b, c, d] =>
    match hexDigit? a, hexDigit? b, hexDigit? c, hexDigit? d with
    | some a, some b, some c, some d => some (((a * 16 + b) * 16 + c) * 16 + d)
    | _, _, _, _ => none
  | _ => none

/-- The second half of a surrogate pair that starts with `first`, if it follows as an escape. -/
def pairChar? (first : Nat) : List Char → Option Char
  | '\\' :: 'u' :: rest =>
    match fourDigits? (rest.take 4) with
    | some second =>
      if 0xd800 ≤ first ∧ first < 0xdc00 ∧ 0xdc00 ≤ second ∧ second < 0xe000 then
        some (Char.ofNat (0x10000 + (first - 0xd800) * 0x400 + (second - 0xdc00)))
      else none
    | none => none
  | _ => none

/-- What an escape stands for, after its backslash, and how many characters it takes. -/
def escape? : List Char → Option (Char × Nat)
  | '"' :: _ => some ('"', 1)
  | '\\' :: _ => some ('\\', 1)
  | '/' :: _ => some ('/', 1)
  | 'b' :: _ => some (Char.ofNat 8, 1)
  | 'f' :: _ => some (Char.ofNat 12, 1)
  | 'n' :: _ => some ('\n', 1)
  | 'r' :: _ => some ('\r', 1)
  | 't' :: _ => some ('\t', 1)
  | 'u' :: rest =>
    match fourDigits? (rest.take 4) with
    | none => none
    | some value =>
      if 0xd800 ≤ value ∧ value < 0xe000 then
        match pairChar? value (rest.drop 4) with
        | some c => some (c, 11)
        | none => some (Char.ofNat 0xfffd, 5)
      else some (Char.ofNat value, 5)
  | _ => none

/-- The contents of a string after its first quote, and what follows its last. -/
def stringBody? (done : List Char) : List Char → Option (String × List Char)
  | [] => none
  | c :: rest =>
    if c = '"' then some (String.ofList done.reverse, rest)
    else if c.toNat < 0x20 then none
    else if c = '\\' then
      match escape? rest with
      | some (value, taken) => stringBody? (value :: done) (rest.drop taken)
      | none => none
    else stringBody? (c :: done) rest
termination_by cs => cs.length
decreasing_by
  · simp only [List.length_drop, List.length_cons]; omega
  · simp only [List.length_cons]; omega

/-- One digit or more. -/
def digits? (cs : List Char) : Option (List Char × List Char) :=
  match cs.takeWhile isDigit with
  | [] => none
  | ds => some (ds, cs.dropWhile isDigit)

/-- The fraction of a number, which may be missing. -/
def fraction? : List Char → Option (List Char × List Char)
  | '.' :: rest => (digits? rest).map fun (ds, rest) => ('.' :: ds, rest)
  | cs => some ([], cs)

/-- The exponent of a number, which may be missing. -/
def exponent? : List Char → Option (List Char × List Char)
  | [] => some ([], [])
  | c :: rest =>
    if c = 'e' ∨ c = 'E' then
      match rest with
      | s :: more =>
        if s = '+' ∨ s = '-' then (digits? more).map fun (ds, rest) => (c :: s :: ds, rest)
        else (digits? rest).map fun (ds, rest) => (c :: ds, rest)
      | [] => none
    else some ([], c :: rest)

/-- The value of decimal digits. -/
def digitsValue (ds : List Char) : Nat :=
  ds.foldl (fun n d => n * 10 + (d.toNat - 48)) 0

/-- A number, and what follows it. A whole part of several digits does not start with zero. -/
def number? (cs : List Char) : Option (Json × List Char) :=
  let (sign, unsigned) := match cs with
    | '-' :: rest => (['-'], rest)
    | _ => ([], cs)
  match digits? unsigned with
  | none => none
  | some (whole, rest) =>
    if 1 < whole.length ∧ whole.head? = some '0' then none
    else
      match fraction? rest with
      | none => none
      | some (fraction, rest) =>
        match exponent? rest with
        | none => none
        | some (exponent, rest) =>
          if fraction.isEmpty && exponent.isEmpty then
            let value : Int := digitsValue whole
            some (int (if sign.isEmpty then value else -value), rest)
          else some (decimal (String.ofList (sign ++ whole ++ fraction ++ exponent)), rest)

/-- The words of JSON. -/
def words : List (List Char × Json) :=
  [("null".toList, null), ("true".toList, bool true), ("false".toList, bool false)]

/-- A word, and what follows it. -/
def word? (cs : List Char) : Option (Json × List Char) :=
  (words.find? fun w => w.1.isPrefixOf cs).map fun (w, value) => (value, cs.drop w.length)

/-- The token that starts with this character, and what follows it. -/
def token? (c : Char) (rest : List Char) : Option (Token × List Char) :=
  if c = '[' then some (.openArr, rest)
  else if c = ']' then some (.closeArr, rest)
  else if c = '\x7b' then some (.openObj, rest)
  else if c = '\x7d' then some (.closeObj, rest)
  else if c = ',' then some (.comma, rest)
  else if c = ':' then some (.colon, rest)
  else if c = '"' then (stringBody? [] rest).map fun (s, rest) => (.str s, rest)
  else
    match word? (c :: rest) with
    | some (value, rest) => some (.plain value, rest)
    | none => (number? (c :: rest)).map fun (value, rest) => (.plain value, rest)

/-- The tokens of a text, after those in `done`, last first. A step takes at least one character, so
the length of the text is enough fuel. -/
def tokens? (done : List Token) : (fuel : Nat) → List Char → Option (List Token)
  | _, [] => some done.reverse
  | 0, _ :: _ => none
  | fuel + 1, c :: rest =>
    if isBlank c then tokens? done fuel rest
    else
      match token? c rest with
      | some (t, rest) => tokens? (t :: done) fuel rest
      | none => none

end LittleLisp.Json
