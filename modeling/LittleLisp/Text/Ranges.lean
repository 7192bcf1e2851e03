/-!
# Ranges of code points

Classes of characters are given as lists of ranges of code points, in ascending order.
-/

namespace LittleLisp.Text

/-- Closed ranges of code points, in ascending order. -/
abbrev Ranges := List (Nat × Nat)

/-- A code point lies in one of the ranges. The search ends at the first range above it. -/
def Ranges.contains : Ranges → Nat → Bool
  | [], _ => false
  | (lo, hi) :: rest, n => decide (lo ≤ n) && (decide (n ≤ hi) || contains rest n)

end LittleLisp.Text
