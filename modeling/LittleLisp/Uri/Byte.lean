/-!
# Bytes of addresses

Addresses are read byte by byte. Only bytes of ASCII characters have a meaning of their own.
-/

namespace LittleLisp.Uri

/-- The byte of an ASCII character. -/
def byteOf (c : Char) : UInt8 :=
  c.toNat.toUInt8

/-- The byte is a letter of the Latin alphabet. -/
def isLatin (b : UInt8) : Bool :=
  (decide (65 ≤ b) && decide (b ≤ 90)) || (decide (97 ≤ b) && decide (b ≤ 122))

/-- The byte is a decimal digit. -/
def isDigit (b : UInt8) : Bool :=
  decide (48 ≤ b) && decide (b ≤ 57)

/-- The byte is one of some ASCII characters. -/
def isOneOf (chars : String) (b : UInt8) : Bool :=
  chars.toList.any (byteOf · == b)

/-- The value of a hexadecimal digit. -/
def hexDigit? (b : UInt8) : Option Nat :=
  if isDigit b then some (b.toNat - 48)
  else if 97 ≤ b ∧ b ≤ 102 then some (b.toNat - 87)
  else if 65 ≤ b ∧ b ≤ 70 then some (b.toNat - 55)
  else none

end LittleLisp.Uri
