/-!
# Hexadecimal numbers

Numbers in lower-case hexadecimal, filled up with zeros on the left.
-/

namespace LittleLisp.Text

/-- The digits of `n` in base sixteen, at least `width` of them. -/
def hex (width n : Nat) : List Char :=
  let digits := Nat.toDigits 16 n
  List.replicate (width - digits.length) '0' ++ digits

end LittleLisp.Text
