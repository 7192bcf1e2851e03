import LittleLisp.Json
import LittleLisp.Text.Hex

/-!
# JSON as text

Values are written without blanks. In a string only what has to be escaped is.
-/

namespace LittleLisp.Json

/-- A character inside a string. -/
def charText (c : Char) : List Char :=
  if c = '"' ∨ c = '\\' then ['\\', c]
  else if c = '\n' then ['\\', 'n']
  else if c = '\r' then ['\\', 'r']
  else if c = '\t' then ['\\', 't']
  else if c = '\x08' then ['\\', 'b']
  else if c = '\x0c' then ['\\', 'f']
  else if c.toNat < 0x20 then '\\' :: 'u' :: Text.hex 4 c.toNat
  else [c]

/-- A string between its quotes. -/
def strText (s : String) : String :=
  String.ofList ('"' :: s.toList.flatMap charText ++ ['"'])

mutual

/-- A value as text. -/
def text : Json → String
  | null => "null"
  | bool true => "true"
  | bool false => "false"
  | int n => toString n
  | decimal s => s
  | str s => strText s
  | arr items => "[" ++ ",".intercalate (itemTexts items) ++ "]"
  | obj fields => "\x7b" ++ ",".intercalate (fieldTexts fields) ++ "\x7d"

/-- The texts of the items of a list. -/
def itemTexts : List Json → List String
  | [] => []
  | v :: rest => v.text :: itemTexts rest

/-- The texts of the fields of an object. -/
def fieldTexts : List (String × Json) → List String
  | [] => []
  | (name, v) :: rest => (strText name ++ ":" ++ v.text) :: fieldTexts rest

end

end LittleLisp.Json
