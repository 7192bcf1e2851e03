import LittleLisp.Text.Literal

/-!
# Inside a literal

A character of a literal stands for itself or is written as a backslash and one more character.
Whoever reads a literal can therefore skip two characters after a backslash and stop at the first
bare quote.
-/

namespace LittleLisp.Text

/-- A quote that can delimit a literal: no escape letter and no character that is escaped by one. -/
structure IsQuote (quote : Char) : Prop where
  unescape_eq : unescape quote = quote
  ne_backslash : quote ≠ '\\'
  ne_newline : quote ≠ '\n'

theorem isQuote_single : IsQuote singleQuote :=
  ⟨by decide, by decide, by decide⟩

theorem isQuote_double : IsQuote doubleQuote :=
  ⟨by decide, by decide, by decide⟩

/-- The two ways in which a character is written inside a literal. -/
inductive Written (quote c : Char) : List Char → Prop where
  /-- The character stands for itself. -/
  | plain (not_quote : c ≠ quote) (not_backslash : c ≠ '\\') (not_newline : c ≠ '\n') :
      Written quote c [c]
  /-- The character is escaped. -/
  | escaped {letter : Char} (means : unescape letter = c) (not_newline : letter ≠ '\n') :
      Written quote c ['\\', letter]

/-- The letter of an escape stands for the character that it was chosen for. -/
theorem unescape_of_escapeLetter {c letter : Char} (h : escapeLetter? c = some letter) :
    unescape letter = c ∧ letter ≠ '\n' := by
  have stands {n : Nat} {d : Char} (hn : c.toNat = n) (hd : some d = some letter)
      (means : unescape d = Char.ofNat n) (not_newline : d ≠ '\n') :
      unescape letter = c ∧ letter ≠ '\n' := by
    obtain rfl := Option.some.inj hd
    rw [means, ← hn, Char.ofNat_toNat]
    exact ⟨rfl, not_newline⟩
  unfold escapeLetter? at h
  split at h
  · next hn => exact stands hn h rfl (by decide)
  · next hn => exact stands hn h rfl (by decide)
  · next hn => exact stands hn h rfl (by decide)
  · next hn => exact stands hn h rfl (by decide)
  · cases h

theorem written_literalChar {quote : Char} (hq : IsQuote quote) (c : Char) :
    Written quote c (literalChar quote c) := by
  unfold literalChar
  split
  · next h =>
    subst h
    exact .escaped rfl (by decide)
  · next not_backslash =>
    split
    · next letter h =>
      obtain ⟨means, not_newline⟩ := unescape_of_escapeLetter h
      exact .escaped means not_newline
    · next h =>
      have not_newline : c ≠ '\n' := by
        rintro rfl
        simp [escapeLetter?] at h
      split
      · next h =>
        subst h
        exact .escaped hq.unescape_eq hq.ne_newline
      · next not_quote => exact .plain not_quote not_backslash not_newline

end LittleLisp.Text
