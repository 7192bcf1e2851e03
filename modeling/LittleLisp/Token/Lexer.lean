import LittleLisp.Fault
import LittleLisp.Text.Blank
import LittleLisp.Text.Digit
import LittleLisp.Text.Letter
import LittleLisp.Token

/-!
# From source to tokens

The lexer looks at the first glyph of what is left and takes one step: it skips a blank or a
comment, takes a token, or finds a fault. A step says how many glyphs it takes after the first one,
so that the steps of a run cut the source into pieces, and each step leaves less to read.
-/

namespace LittleLisp

namespace Token

/-- The signs that may stand in an identifier beside letters and digits. -/
def identSigns : List Char :=
  "+-*/<>=!?_".toList

/-- A character that may start an identifier. -/
def isIdentStart (c : Char) : Bool :=
  identSigns.contains c || Text.isLetter c

/-- A character that may stand in an identifier. -/
def isIdentPart (c : Char) : Bool :=
  isIdentStart c || Text.isDigit c

/-- A character that ends a number. -/
def isDelimiter (c : Char) : Bool :=
  Text.isBlank c || c == '(' || c == ')' || c == ';' || c == Text.doubleQuote ||
    c == Text.singleQuote

/-- One step of the lexer. The count `more` is of the glyphs taken after the first one. -/
inductive Step where
  | skip (more : Nat)
  | token (value : Value) (more : Nat) (len : Nat)
  | fault (cause : Fault) (len : Nat)
deriving Repr

/-- The value of a decimal digit of ASCII. -/
def digitValue? (g : Glyph) : Option Nat :=
  match g with
  | .char c => if '0' ≤ c ∧ c ≤ '9' then some (c.toNat - '0'.toNat) else none
  | .stray _ => none

/-- The value of the digits `text` after digits of value `value`; none if one is not a digit. -/
def digitsValue? (value : Nat) : Source → Option Nat
  | [] => some value
  | g :: rest =>
    match digitValue? g with
    | some d => digitsValue? (value * 10 + d) rest
    | none => none

/-- The value of at least one digit. -/
def magnitude? : Source → Option Nat
  | [] => none
  | text => digitsValue? 0 text

/-- The value of a numeral: an optional minus sign and at least one digit. -/
def numeral? : Source → Option Int
  | .char '-' :: digits => (magnitude? digits).map fun n => -(n : Int)
  | digits => (magnitude? digits).map fun n => (n : Int)

/-- The integers of 64 bits. Numerals beyond them are not read as numbers at all. -/
def isWord64 (n : Int) : Bool :=
  decide (-9223372036854775808 ≤ n) && decide (n ≤ 9223372036854775807)

/-- The integers that fit in a C `int`. -/
def isWord32 (n : Int) : Bool :=
  decide (-2147483648 ≤ n) && decide (n ≤ 2147483647)

/-- Reads a number: everything up to the next delimiter has to be a numeral in range. -/
def numberStep (first : Glyph) (rest : Source) : Step :=
  let tail := rest.takeWhile fun g => !isDelimiter g.rune
  let text := first :: tail
  match numeral? text with
  | none => .fault (.badNumeral text) (Source.size text)
  | some n =>
    if !isWord64 n then .fault (.badNumeral text) (Source.size text)
    else if !isWord32 n then .fault (.wideNumeral text) (Source.size text)
    else .token (.int n) tail.length (Source.size text)

/-- The contents of a string up to its closing quote, and the number of glyphs they take with that
quote; none if the source ends first. -/
def stringBody? : Source → Option (List Char × Nat)
  | [] => none
  | g :: rest =>
    if g.rune = Text.doubleQuote then some ([], 1)
    else if g.rune = '\\' then
      match rest with
      | [] => none
      | escaped :: rest =>
        (stringBody? rest).map fun (cs, n) => (Text.unescape escaped.rune :: cs, n + 2)
    else (stringBody? rest).map fun (cs, n) => (g.rune :: cs, n + 1)

/-- Reads a string; its length is in bytes. -/
def stringStep (first : Glyph) (rest : Source) : Step :=
  match stringBody? rest with
  | none => .fault .openString 1
  | some (cs, more) =>
    .token (.str (String.ofList cs)) more (Source.size (first :: rest.take more))

/-- Reads what follows the value of a character constant: the closing quote. -/
def closeChar (value : Char) (more : Nat) (rest : Source) : Step :=
  match rest with
  | closing :: _ =>
    if closing.rune ≠ Text.singleQuote then .fault .openChar 1
    else if 0x80 ≤ value.toNat then .fault (.wideChar value) (more + 1)
    else .token (.char value) more (more + 1)
  | [] => .fault .openChar 1

/-- Reads a character constant: one character or an escape, between single quotes. -/
def charStep (rest : Source) : Step :=
  match rest with
  | [] => .fault .openChar 1
  | g :: rest =>
    if g.rune = Text.singleQuote ∨ g.rune = '\n' then .fault .openChar 1
    else if g.rune = '\\' then
      match rest with
      | [] => .fault .openChar 1
      | escaped :: rest => closeChar (Text.unescape escaped.rune) 3 rest
    else closeChar g.rune 2 rest

/-- Reads an identifier; its length is in glyphs. -/
def identStep (first : Glyph) (rest : Source) : Step :=
  let tail := rest.takeWhile fun g => isIdentPart g.rune
  .token (.ident (Source.toText (first :: tail))) tail.length (tail.length + 1)

/-- A number starts here: with a digit, or with a minus sign before a digit. -/
def startsNumber (first : Glyph) (rest : Source) : Bool :=
  Text.isDigit first.rune ||
    (first.rune == '-' && match rest with
      | [] => false
      | g :: _ => Text.isDigit g.rune)

/-- The step that starts with the glyph `first`. -/
def step (first : Glyph) (rest : Source) : Step :=
  let c := first.rune
  if Text.isBlank c then .skip 0
  else if c = ';' then .skip (rest.takeWhile fun g => g.rune ≠ '\n').length
  else if c = '(' then .token .opening 0 1
  else if c = ')' then .token .closing 0 1
  else if c = Text.doubleQuote then stringStep first rest
  else if c = Text.singleQuote then charStep rest
  else if startsNumber first rest then numberStep first rest
  else if isIdentStart c then identStep first rest
  else .fault (.unknownToken c) 1

/-- The tokens of a source that starts at `p` in a file. -/
def scan (file : String) (p : Position) : Source → Except Problem (List Token)
  | [] => .ok []
  | first :: rest =>
    match step first rest with
    | .skip more =>
      scan file (p.advance (first :: rest.take more)) (rest.drop more)
    | .token value more len =>
      match scan file (p.advance (first :: rest.take more)) (rest.drop more) with
      | .ok tokens => .ok (⟨value, ⟨file, p.line, p.col, len, none⟩⟩ :: tokens)
      | .error problem => .error problem
    | .fault cause len => .error (cause.at ⟨file, p.line, p.col, len, none⟩)
termination_by source => source.length
decreasing_by
  all_goals simp only [List.length_drop, List.length_cons]; omega

/-- The tokens of a source. -/
def lex (file : String) (source : Source) : Except Problem (List Token) :=
  scan file .start source

end Token

end LittleLisp
