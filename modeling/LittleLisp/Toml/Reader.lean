import LittleLisp.Toml.Quote

/-!
# The lines of a TOML document

Reads a text as a sequence of table headers and assignments. Anything that is not one makes the
whole text unreadable.
-/

namespace LittleLisp.Toml

/-- Drops blanks, line ends and comments. -/
def skipTrivia (inComment : Bool) : List Char → List Char
  | [] => []
  | c :: rest =>
    if inComment then skipTrivia (!isLineEnd c) rest
    else if isBlank c || isLineEnd c then skipTrivia false rest
    else if c = '#' then skipTrivia true rest
    else c :: rest

/-- A character of a name without quotes. -/
def isBareChar (c : Char) : Bool :=
  isDigit c || (decide ('a' ≤ c) && decide (c ≤ 'z')) || (decide ('A' ≤ c) && decide (c ≤ 'Z')) ||
    c == '_' || c == '-'

/-- One name of a key. -/
def name? (cs : List Char) : Option (String × List Char) :=
  match cut isBareChar cs with
  | ([], rest) => lineQuoted? rest
  | (bare, rest) => some (String.ofList bare, rest)

/-- A key: names with points between them. Blanks around each name do not count. -/
def key? : (fuel : Nat) → List Char → Option (Key × List Char)
  | 0, _ => none
  | fuel + 1, cs =>
    match name? (cs.dropWhile isBlank) with
    | none => none
    | some (name, rest) =>
      match rest.dropWhile isBlank with
      | '.' :: rest => (key? fuel rest).map fun (key, rest) => (name :: key, rest)
      | rest => some ([name], rest)

mutual

/-- A value, after blanks. -/
def value? : (fuel : Nat) → List Char → Option (Written × List Char)
  | 0, _ => none
  | fuel + 1, cs =>
    match cs.dropWhile isBlank with
    | '[' :: rest => (items? fuel rest).map fun (items, rest) => (.array items, rest)
    | '\x7b' :: rest => (fields? fuel rest).map fun (fields, rest) => (.inline fields, rest)
    | 't' :: 'r' :: 'u' :: 'e' :: rest => some (.bool true, rest)
    | 'f' :: 'a' :: 'l' :: 's' :: 'e' :: rest => some (.bool false, rest)
    | c :: rest =>
      if c = '"' ∨ c = Char.ofNat 39 then
        (quoted? (c :: rest)).map fun (s, rest) => (.str s, rest)
      else number? (c :: rest)
    | [] => none

/-- The items of a list up to its closing bracket. -/
def items? : (fuel : Nat) → List Char → Option (List Written × List Char)
  | 0, _ => none
  | fuel + 1, cs =>
    match skipTrivia false cs with
    | ']' :: rest => some ([], rest)
    | cs =>
      match value? fuel cs with
      | none => none
      | some (item, rest) =>
        match skipTrivia false rest with
        | ',' :: rest => (items? fuel rest).map fun (items, rest) => (item :: items, rest)
        | ']' :: rest => some ([item], rest)
        | _ => none

/-- The fields of a table in braces up to its closing brace. -/
def fields? : (fuel : Nat) → List Char → Option (List (Key × Written) × List Char)
  | 0, _ => none
  | fuel + 1, cs =>
    match skipTrivia false cs with
    | '\x7d' :: rest => some ([], rest)
    | cs =>
      match assignment? fuel cs with
      | none => none
      | some (field, rest) =>
        match skipTrivia false rest with
        | ',' :: rest => (fields? fuel rest).map fun (fields, rest) => (field :: fields, rest)
        | '\x7d' :: rest => some ([field], rest)
        | _ => none

/-- A key, an equals sign and a value. -/
def assignment? : (fuel : Nat) → List Char → Option ((Key × Written) × List Char)
  | 0, _ => none
  | fuel + 1, cs =>
    match key? fuel cs with
    | some (key, '=' :: rest) => (value? fuel rest).map fun (value, rest) => ((key, value), rest)
    | _ => none

end

/-- One header or assignment. -/
def item? (fuel : Nat) (cs : List Char) : Option (Item × List Char) :=
  match cs with
  | '[' :: '[' :: rest =>
    match key? fuel rest with
    | some (key, ']' :: ']' :: rest) => some (.tableList key, rest)
    | _ => none
  | '[' :: rest =>
    match key? fuel rest with
    | some (key, ']' :: rest) => some (.table key, rest)
    | _ => none
  | _ => (assignment? fuel cs).map fun ((key, value), rest) => (.assign key value, rest)

/-- Nothing but blanks and a comment is left of the line. -/
def isLineDone (cs : List Char) : Bool :=
  match cs.dropWhile isBlank with
  | [] => true
  | c :: _ => c == '#' || isLineEnd c

/-- The lines of a document. The fuel is more than the length of the text. -/
def items : (fuel : Nat) → List Char → Option (List Item)
  | 0, _ => none
  | fuel + 1, cs =>
    match skipTrivia false cs with
    | [] => some []
    | cs =>
      match item? fuel cs with
      | some (item, rest) =>
        if isLineDone rest then (items fuel rest).map (item :: ·) else none
      | none => none

/-- A text holds no control characters but tabs and line ends, and every carriage return comes
before a newline. -/
def isPlain : List Char → Bool
  | [] => true
  | '\r' :: rest => rest.head? == some '\n' && isPlain rest
  | c :: rest =>
    (c == '\t' || c == '\n' || (decide (0x20 ≤ c.toNat) && c.toNat != 0x7f)) && isPlain rest

/-- Drops a byte-order mark at the start of a text. -/
def dropMark : List Char → List Char
  | c :: rest => if c.toNat = 0xfeff then rest else c :: rest
  | [] => []

/-- The lines of a text. -/
def itemsOf? (s : String) : Option (List Item) :=
  let cs := dropMark s.toList
  if isPlain cs then items (2 * cs.length + 4) cs else none

end LittleLisp.Toml
