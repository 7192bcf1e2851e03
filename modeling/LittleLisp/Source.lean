/-!
# Source text

A source arrives as bytes and is read as glyphs. A glyph is a character in UTF-8, or one byte that
belongs to no character; such a stray byte is read as the replacement character U+FFFD and counts
as one glyph. Decoding loses nothing: the bytes of the glyphs are the bytes that came in.
-/

namespace LittleLisp

/-- A unit of source text: a character, or a byte that is part of no character. -/
inductive Glyph where
  | char (c : Char)
  | stray (byte : UInt8)
deriving DecidableEq, Repr

namespace Glyph

/-- The character that a glyph reads as; a stray byte reads as U+FFFD. -/
def rune : Glyph → Char
  | char c => c
  | stray _ => Char.ofNat 0xfffd

/-- A glyph that is a character. -/
def isChar : Glyph → Bool
  | char _ => true
  | stray _ => false

/-- The bytes of a glyph. -/
def bytes : Glyph → List UInt8
  | char c => String.utf8EncodeChar c
  | stray b => [b]

/-- The number of bytes of a glyph. -/
def size : Glyph → Nat
  | char c => c.utf8Size
  | stray _ => 1

/-- The bytes after the first one of a longer character have the form `10xxxxxx`. -/
def isContinuation (b : UInt8) : Bool :=
  decide (0x80 ≤ b.toNat) && decide (b.toNat < 0xc0)

/-- The value of a first byte's bits `bits` followed by continuation bytes. -/
def scalarValue (bits : Nat) (tail : List UInt8) : Nat :=
  tail.foldl (fun value b => value * 64 + (b.toNat - 0x80)) bits

/-- The character made of `bits` and the next `count` bytes of `rest`, which must all be there, be
continuation bytes, and give a scalar value no smaller than `least`. -/
def longChar? (count bits least : Nat) (rest : List UInt8) : Option Char :=
  let tail := rest.take count
  let value := scalarValue bits tail
  if tail.length = count ∧ tail.all isContinuation ∧ least ≤ value ∧ value.isValidChar then
    some (Char.ofNat value)
  else
    none

/-- The character that starts with the byte `b`, and how many bytes of `rest` it takes. -/
def leadingChar? (b : UInt8) (rest : List UInt8) : Option (Char × Nat) :=
  let n := b.toNat
  if n < 0x80 then some (Char.ofNat n, 0)
  else if n < 0xc0 then none
  else if n < 0xe0 then (longChar? 1 (n - 0xc0) 0x80 rest).map (·, 1)
  else if n < 0xf0 then (longChar? 2 (n - 0xe0) 0x800 rest).map (·, 2)
  else if n < 0xf8 then (longChar? 3 (n - 0xf0) 0x10000 rest).map (·, 3)
  else none

end Glyph

/-- A source text, glyph by glyph. -/
abbrev Source := List Glyph

namespace Source

/-- Reads bytes as glyphs: a character where one starts, else one stray byte. -/
def ofBytes : List UInt8 → Source
  | [] => []
  | b :: rest =>
    match Glyph.leadingChar? b rest with
    | some (c, taken) => .char c :: ofBytes (rest.drop taken)
    | none => .stray b :: ofBytes rest
termination_by bytes => bytes.length
decreasing_by
  · simp only [List.length_drop, List.length_cons]; omega
  · simp only [List.length_cons]; omega

/-- The glyphs of a text. -/
def ofString (s : String) : Source :=
  s.toList.map .char

/-- The bytes of a source. -/
def bytes (s : Source) : List UInt8 :=
  s.flatMap Glyph.bytes

/-- The number of bytes of a source. -/
def size : Source → Nat
  | [] => 0
  | g :: rest => g.size + size rest

/-- A source as text, with U+FFFD for each stray byte. -/
def toText (s : Source) : String :=
  String.ofList (s.map Glyph.rune)

/-- A source as text, if it has no stray bytes. -/
def text? (s : Source) : Option String :=
  if s.all Glyph.isChar then some s.toText else none

/-- The glyph that ends a line. -/
def newline : Glyph :=
  .char '\n'

/-- The lines of a source, without the newlines between them. There is always at least one. -/
def lines : Source → List Source
  | [] => [[]]
  | g :: rest =>
    if g = newline then [] :: lines rest
    else match lines rest with
      | [] => [[g]]
      | line :: more => (g :: line) :: more

@[simp] theorem bytes_nil : bytes [] = [] := rfl

@[simp] theorem bytes_append (s t : Source) : bytes (s ++ t) = bytes s ++ bytes t := by
  simp [bytes]

@[simp] theorem size_nil : size [] = 0 := rfl

@[simp] theorem size_append (s t : Source) : size (s ++ t) = size s + size t := by
  induction s with
  | nil => simp
  | cons g rest ih => simp only [List.cons_append, size, ih]; omega

theorem lines_ne_nil (s : Source) : lines s ≠ [] := by
  cases s with
  | nil => simp [lines]
  | cons g rest =>
    rw [lines]
    split
    · simp
    · split <;> simp

end Source

end LittleLisp
