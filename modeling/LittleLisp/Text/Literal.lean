import LittleLisp.Text.Quoted

/-!
# Character and string literals

The Lisp and the C that is made from it write literals alike: between quotes, with a backslash
before the quote and the backslash itself, and `\n`, `\t`, `\r` and `\0` for four characters that
cannot stand in a literal. Everything else stands for itself.
-/

namespace LittleLisp.Text

/-- The letter that stands for a character after a backslash in a literal. -/
def escapeLetter? (c : Char) : Option Char :=
  match c.toNat with
  | 10 => some 'n'
  | 9 => some 't'
  | 13 => some 'r'
  | 0 => some '0'
  | _ => none

/-- The character that a letter stands for after a backslash in a literal. -/
def unescape (c : Char) : Char :=
  match c with
  | 'n' => '\n'
  | 't' => '\t'
  | 'r' => '\r'
  | '0' => Char.ofNat 0
  | _ => c

/-- A character inside a literal with quotes of the kind `quote`. -/
def literalChar (quote c : Char) : List Char :=
  if c = '\\' then ['\\', '\\']
  else match escapeLetter? c with
    | some letter => ['\\', letter]
    | none => if c = quote then ['\\', c] else [c]

/-- A literal with quotes of the kind `quote`. -/
def literal (quote : Char) (s : List Char) : List Char :=
  quote :: s.flatMap (literalChar quote) ++ [quote]

end LittleLisp.Text
