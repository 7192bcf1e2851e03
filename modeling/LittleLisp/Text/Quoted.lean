import LittleLisp.Source
import LittleLisp.Text.Hex
import LittleLisp.Text.Printable

/-!
# Quoted text

How messages show a text that may hold anything: between quotes, with the quote and the backslash
escaped, printable characters as they are, the usual control characters by their letter, and the
rest by number. A stray byte is shown as that byte.
-/

namespace LittleLisp.Text

/-- The single quote. -/
def singleQuote : Char := Char.ofNat 39

/-- The double quote. -/
def doubleQuote : Char := Char.ofNat 34

/-- The letter that stands for a control character after a backslash. -/
def controlLetter? (c : Char) : Option Char :=
  match c.toNat with
  | 7 => some 'a'
  | 8 => some 'b'
  | 9 => some 't'
  | 10 => some 'n'
  | 11 => some 'v'
  | 12 => some 'f'
  | 13 => some 'r'
  | _ => none

/-- A character inside quotes of the kind `quote`. -/
def quoteChar (quote c : Char) : List Char :=
  if c = quote ∨ c = '\\' then ['\\', c]
  else if isPrintable c then [c]
  else match controlLetter? c with
    | some letter => ['\\', letter]
    | none =>
      if c.toNat < 0x80 then '\\' :: 'x' :: hex 2 c.toNat
      else if c.toNat < 0x10000 then '\\' :: 'u' :: hex 4 c.toNat
      else '\\' :: 'U' :: hex 8 c.toNat

/-- A glyph inside quotes of the kind `quote`. -/
def quoteGlyph (quote : Char) : Glyph → List Char
  | .char c => quoteChar quote c
  | .stray b => '\\' :: 'x' :: hex 2 b.toNat

/-- A source between quotes of the kind `quote`. -/
def quoteSource (quote : Char) (s : Source) : String :=
  String.ofList (quote :: s.flatMap (quoteGlyph quote) ++ [quote])

/-- A text between double quotes. -/
def quoted (s : String) : String :=
  quoteSource doubleQuote (Source.ofString s)

end LittleLisp.Text
