import LittleLisp.Toml

/-!
# Numbers and times in TOML

Numbers may have underscores between digits and no needless leading zeros. Integers have 64 bits and
may be written in base two, eight or sixteen. Of a floating-point number and of a time only the form
and the range are checked.
-/

namespace LittleLisp.Toml

/-- A decimal digit. -/
def isDigit (c : Char) : Bool :=
  decide ('0' ≤ c) && decide (c ≤ '9')

/-- The value of a digit in a base of at most sixteen. -/
def digitValue? (base : Nat) (c : Char) : Option Nat :=
  let value :=
    if isDigit c then some (c.toNat - '0'.toNat)
    else if 'a' ≤ c ∧ c ≤ 'f' then some (c.toNat - 'a'.toNat + 10)
    else if 'A' ≤ c ∧ c ≤ 'F' then some (c.toNat - 'A'.toNat + 10)
    else none
  value.filter (· < base)

/-- The value of digits in a base. -/
def digitsValue (base : Nat) (digits : List Char) : Nat :=
  digits.foldl (fun n c => n * base + (digitValue? base c).getD 0) 0

/-- Every underscore stands between digits, and the last character is a digit. -/
def separatorsOk (afterDigit : Bool) : List Char → Bool
  | [] => afterDigit
  | '_' :: rest => afterDigit && separatorsOk false rest
  | c :: rest => separatorsOk ((digitValue? 16 c).isSome) rest

/-- The digits without the underscores between them. -/
def withoutSeparators (cs : List Char) : List Char :=
  cs.filter (· ≠ '_')

/-- An optional sign: whether it is a minus sign, and what follows. -/
def splitSign : List Char → Bool × List Char
  | '-' :: rest => (true, rest)
  | '+' :: rest => (false, rest)
  | cs => (false, cs)

/-- A number has a zero in front of other digits. -/
def hasLeadingZero (unsigned : List Char) : Bool :=
  match unsigned with
  | '0' :: _ :: _ => true
  | _ => false

/-- An integer of 64 bits. -/
def word64? (n : Int) : Option Int :=
  if -9223372036854775808 ≤ n ∧ n ≤ 9223372036854775807 then some n else none

/-- The value of a decimal integer with an optional sign. -/
def decimal? (text : List Char) : Option Int :=
  let (negative, digits) := splitSign text
  if separatorsOk false digits && !hasLeadingZero digits then
    let n : Int := digitsValue 10 (withoutSeparators digits)
    word64? (if negative then -n else n)
  else none

/-- The value of the digits of an integer in another base. -/
def based? (base : Nat) (digits : List Char) : Option Int :=
  if separatorsOk false digits then word64? (digitsValue base (withoutSeparators digits)) else none

/-- Cuts a list at the first element that fails a test. -/
def cut (p : Char → Bool) (cs : List Char) : List Char × List Char :=
  (cs.takeWhile p, cs.dropWhile p)

/-- Digits, of which there has to be one at least. -/
def someDigits? (cs : List Char) : Option (List Char × List Char) :=
  match cut isDigit cs with
  | ([], _) => none
  | (digits, rest) => some (digits, rest)

/-- The exponent of a floating-point number, if one is written. -/
def exponent? : List Char → Option Int
  | [] => some 0
  | c :: rest =>
    if c = 'e' ∨ c = 'E' then
      let (negative, digits) := splitSign rest
      match someDigits? digits with
      | some (digits, []) =>
        let n : Int := digitsValue 10 digits
        some (if negative then -n else n)
      | _ => none
    else none

/-- The number `m · 10 ^ e` is at most the largest double, up to rounding. -/
def fitsDouble (m : Nat) (e : Int) : Bool :=
  let size : Int := (Nat.toDigits 10 m).length + e
  m == 0 || decide (size < 300) ||
    (decide (size < 400) &&
      let limit := (Nat.pow 2 54 - 1) * Nat.pow 2 970
      if 0 ≤ e then decide (m * Nat.pow 10 e.toNat < limit)
      else decide (m < limit * Nat.pow 10 (-e).toNat))

/-- The text of a floating-point number without underscores is one, and is in range. -/
def isFloat (text : List Char) : Bool :=
  match someDigits? (splitSign text).2 with
  | none => false
  | some (whole, rest) =>
    let parts := match rest with
      | '.' :: rest => someDigits? rest
      | _ => some ([], rest)
    match parts with
    | none => false
    | some (fraction, rest) =>
      match exponent? rest with
      | none => false
      | some e => fitsDouble (digitsValue 10 (whole ++ fraction)) (e - fraction.length)

/-- The parts of a number between points and exponent marks. -/
def numberParts (part : List Char) : List Char → List (List Char)
  | [] => if part.isEmpty then [] else [part]
  | c :: rest =>
    if c = '.' ∨ c = 'e' ∨ c = 'E' then
      (if part.isEmpty then [] else [part]) ++ numberParts [] rest
    else numberParts (part ++ [c]) rest

/-- A floating-point number as it is written. -/
def isWrittenFloat (text : List Char) : Bool :=
  let parts := numberParts [] text
  parts.all (separatorsOk false) && !(parts.head?.any fun p => hasLeadingZero (splitSign p).2) &&
    isFloat (withoutSeparators text)

/-- Two digits and their value. -/
def twoDigits? : List Char → Option (Nat × List Char)
  | a :: b :: rest => if isDigit a && isDigit b then some (digitsValue 10 [a, b], rest) else none
  | _ => none

/-- The number of days of a month. -/
def daysIn (year month : Nat) : Nat :=
  if month = 2 then
    if year % 4 = 0 ∧ (year % 100 ≠ 0 ∨ year % 400 = 0) then 29 else 28
  else if month = 4 ∨ month = 6 ∨ month = 9 ∨ month = 11 then 30
  else 31

/-- A date `yyyy-mm-dd`, and what follows. -/
def date? (cs : List Char) : Option (List Char) :=
  match twoDigits? cs with
  | some (century, rest) =>
    match twoDigits? rest with
    | some (years, '-' :: rest) =>
      match twoDigits? rest with
      | some (month, '-' :: rest) =>
        match twoDigits? rest with
        | some (day, rest) =>
          if 1 ≤ month ∧ month ≤ 12 ∧ 1 ≤ day ∧ day ≤ daysIn (century * 100 + years) month then
            some rest
          else none
        | none => none
      | _ => none
    | _ => none
  | none => none

/-- A time `hh:mm`, with optional seconds and a fraction of them, and what follows. -/
def time? (cs : List Char) : Option (List Char) :=
  match twoDigits? cs with
  | some (hour, ':' :: rest) =>
    match twoDigits? rest with
    | some (minute, rest) =>
      if 24 ≤ hour ∨ 60 ≤ minute then none
      else
        match rest with
        | ':' :: rest =>
          match twoDigits? rest with
          | some (second, rest) =>
            if 60 ≤ second then none
            else
              match rest with
              | '.' :: rest => (someDigits? rest).map (·.2)
              | _ => some rest
          | none => none
        | _ => some rest
    | none => none
  | _ => none

/-- A distance from universal time: nothing, `Z`, or a sign, hours and minutes. -/
def isZone : List Char → Bool
  | [] => true
  | ['Z'] => true
  | c :: rest =>
    (c == '+' || c == '-') &&
      match twoDigits? rest with
      | some (hours, ':' :: rest) =>
        match twoDigits? rest with
        | some (minutes, []) => decide (hours ≤ 24) && decide (minutes ≤ 60)
        | _ => false
      | _ => false

/-- A date, a time, or both, with or without a distance from universal time. -/
def isDateTime (cs : List Char) : Bool :=
  match date? cs with
  | some [] => true
  | some ('T' :: rest) =>
    match time? rest with
    | some zone => isZone zone
    | none => false
  | some _ => false
  | none => time? cs == some []

/-- The marks of a date and time in the form that is checked. -/
def dateTimeMark : Char → Char
  | 't' | ' ' => 'T'
  | 'z' => 'Z'
  | c => c

/-- A character that may stand in a date and time. -/
def isDateTimeChar (c : Char) : Bool :=
  isDigit c || "-:Tt .Zz+".toList.contains c

/-- A character that may stand in a floating-point number. -/
def isFloatChar (c : Char) : Bool :=
  isDigit c || "_.-+eE".toList.contains c

/-- A date and time at the start of a text. -/
def dateTime? (cs : List Char) : Option (Written × List Char) :=
  let (text, rest) := cut isDateTimeChar cs
  let trimmed := (text.reverse.dropWhile (· == ' ')).reverse
  if isDateTime (trimmed.map dateTimeMark) then some (.dateTime, rest) else none

/-- A floating-point number at the start of a text, after the sign that has been read. -/
def float? (sign : List Char) (cs : List Char) : Option (Written × List Char) :=
  let (text, rest) := cut isFloatChar cs
  if isWrittenFloat (sign ++ text) then some (.float, rest) else none

/-- An integer in another base. -/
def basedInt? (base : Nat) (cs : List Char) : Option (Written × List Char) :=
  let (digits, rest) := cut (fun c => c == '_' || (digitValue? base c).isSome) cs
  (based? base digits).map fun n => (.int n, rest)

/-- A number in base ten after an optional sign, or a time where there is none. -/
def numberAfter? (sign : List Char) (cs : List Char) : Option (Written × List Char) :=
  let (digits, rest) := cut (fun c => isDigit c || c == '_') cs
  let int := (decimal? (sign ++ digits)).map fun n => (Written.int n, rest)
  match digits, rest with
  | [], _ => none
  | _, c :: _ =>
    if c = '.' ∨ c = 'e' ∨ c = 'E' then float? sign cs
    else if sign.isEmpty && (c == '-' || c == ':') && !digits.contains '_' then dateTime? cs
    else int
  | _, [] => int

/-- A number or a time at the start of a text. -/
def number? (cs : List Char) : Option (Written × List Char) :=
  match cs with
  | '0' :: 'x' :: rest => basedInt? 16 rest
  | '0' :: 'o' :: rest => basedInt? 8 rest
  | '0' :: 'b' :: rest => basedInt? 2 rest
  | '+' :: 'i' :: 'n' :: 'f' :: rest | '-' :: 'i' :: 'n' :: 'f' :: rest
  | 'i' :: 'n' :: 'f' :: rest | '+' :: 'n' :: 'a' :: 'n' :: rest
  | '-' :: 'n' :: 'a' :: 'n' :: rest | 'n' :: 'a' :: 'n' :: rest => some (.float, rest)
  | '+' :: rest => numberAfter? ['+'] rest
  | '-' :: rest => numberAfter? ['-'] rest
  | _ => numberAfter? [] cs

end LittleLisp.Toml
