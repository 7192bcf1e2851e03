import LittleLisp.Text.Ranges

/-!
# Blanks

The blanks separate tokens: the white space of Unicode.
-/

namespace LittleLisp.Text

/-- The code points of the blanks, in ascending order. -/
def blankRanges : Ranges :=
  [(0x0009, 0x000d), (0x0020, 0x0020), (0x0085, 0x0085), (0x00a0, 0x00a0), (0x1680, 0x1680),
   (0x2000, 0x200a), (0x2028, 0x2029), (0x202f, 0x202f), (0x205f, 0x205f), (0x3000, 0x3000)]

/-- White space of every script. -/
def isBlank (c : Char) : Bool :=
  blankRanges.contains c.toNat

end LittleLisp.Text
