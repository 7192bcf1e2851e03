import LittleLisp.C.Name

/-!
# Numerals and other runs of characters

A reader takes a word or a number up to the first character that cannot be part of it. Integers are
printed in decimal: digits without leading zeros, after a minus sign if the integer is negative. The
lemmas here are what readers of such text need.
-/

namespace LittleLisp.Text

/-- A run of characters of one kind ends where the next one is of another kind. -/
theorem takeWhile_run {α : Type} {p : α → Bool} {run rest : List α} (hrun : ∀ c ∈ run, p c = true)
    (hrest : ∀ c ∈ rest.head?, p c = false) : (run ++ rest).takeWhile p = run := by
  rw [List.takeWhile_append_of_pos hrun]
  cases rest with
  | nil => simp
  | cons c more => simp [hrest c rfl]

/-- A character made from a code point has that code point. -/
theorem toNat_ofNat {n : Nat} (h : n.isValidChar) : (Char.ofNat n).toNat = n := by
  rw [Char.ofNat, dif_pos h]
  rfl

/-- The decimal digits are the characters from `0` to `9`. -/
theorem isDecimal_iff {c : Char} : C.isDecimal c = true ↔ 48 ≤ c.toNat ∧ c.toNat ≤ 57 := by
  simp only [C.isDecimal, Bool.and_eq_true, decide_eq_true_eq, Char.le_def, UInt32.le_iff_toNat_le]
  rfl

theorem isDecimal_of_mem_toDigits {n : Nat} {c : Char} (h : c ∈ Nat.toDigits 10 n) :
    C.isDecimal c = true := by
  have digit := Nat.isDigit_of_mem_toDigits (by decide) (by decide) h
  simp only [Char.isDigit, Bool.and_eq_true, decide_eq_true_eq, ge_iff_le,
    UInt32.le_iff_toNat_le] at digit
  exact isDecimal_iff.2 digit

/-- Only the numeral of zero starts with a zero. -/
theorem head_toDigits_ne_zero (n : Nat) (h : 0 < n) : (Nat.toDigits 10 n).head? ≠ some '0' := by
  induction n using Nat.strongRecOn with
  | ind n ih =>
    rw [Nat.toDigits_eq_if (by decide)]
    split
    · next small =>
      have table : ∀ k : Fin 10, 0 < k.val → [Nat.digitChar k].head? ≠ some '0' := by decide
      exact table ⟨n, small⟩ h
    · next large =>
      have shorter := ih (n / 10) (by omega) (by omega)
      cases digits : Nat.toDigits 10 (n / 10) with
      | nil => exact absurd digits Nat.toDigits_ne_nil
      | cons d ds =>
        rw [digits] at shorter
        exact shorter

/-- The numeral of an integer that is not negative: its digits. -/
theorem intChars_of_nonneg {n : Int} (h : 0 ≤ n) :
    (toString n).toList = Nat.toDigits 10 n.toNat := by
  rw [Int.toString_eq_repr, Int.repr_eq_if, if_pos h, Nat.toList_repr]

/-- The numeral of a negative integer: a minus sign and the digits of its magnitude. -/
theorem intChars_of_neg {n : Int} (h : n < 0) :
    (toString n).toList = '-' :: Nat.toDigits 10 (-n).toNat := by
  rw [Int.toString_eq_repr, Int.repr_eq_if, if_neg (by omega), String.toList_append,
    Nat.toList_repr]
  rfl

end LittleLisp.Text
