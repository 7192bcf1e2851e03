import LittleLisp.Proofs.Text.Numeral
import Mathlib.Tactic.Tauto

/-!
# C spellings are C identifiers

`C.spell` keeps a C identifier as it is and builds one from words otherwise. Every word is made of
letters, digits and underscores, so all that is left to see is the first character: a spelling that
would start with a digit gets `v_` in front.
-/

namespace LittleLisp.C

theorem isNamePart_of_isNameStart {c : Char} (h : isNameStart c = true) : isNamePart c = true := by
  simp [isNamePart, h]

theorem isNamePart_of_isDecimal {c : Char} (h : isDecimal c = true) : isNamePart c = true := by
  simp [isNamePart, h]

/-- Lower case keeps a letter or digit one that may stand in an identifier. -/
theorem isNamePart_small {c : Char} (h : isNamePart c = true) : isNamePart (small c) = true := by
  unfold small
  split
  · next hc =>
    simp only [isCapital, Bool.and_eq_true, decide_eq_true_eq, Char.le_def,
      UInt32.le_iff_toNat_le] at hc
    have bounds : 65 ≤ c.toNat ∧ c.toNat ≤ 90 := hc
    have valid : (c.toNat + 32).isValidChar := Or.inl (by omega)
    have shifted := Text.toNat_ofNat valid
    have letter : isSmall (Char.ofNat (c.toNat + 32)) = true := by
      simp only [isSmall, Bool.and_eq_true, decide_eq_true_eq, Char.le_def,
        UInt32.le_iff_toNat_le]
      change 97 ≤ (Char.ofNat (c.toNat + 32)).toNat ∧ (Char.ofNat (c.toNat + 32)).toNat ≤ 122
      omega
    simp [isNamePart, isNameStart, letter]
  · exact h

/-! ## Words -/

/-- The characters that a word of a name is collected from. -/
def isWordPart (c : Char) : Bool :=
  isCapital c || isSmall c || isDecimal c

theorem isNamePart_of_isWordPart {c : Char} (h : isWordPart c = true) : isNamePart c = true := by
  simp only [isWordPart, Bool.or_eq_true] at h
  simp only [isNamePart, isNameStart, Bool.or_eq_true]
  tauto

theorem isNamePart_of_mem_snake (before : Option Char) (word : List Char)
    (h : ∀ c ∈ word, isNamePart c = true) {c : Char} (hc : c ∈ snake before word) :
    isNamePart c = true := by
  have underscore {b : Bool} (hc : c ∈ if b then ['_'] else []) : isNamePart c = true := by
    cases b
    · simp at hc
    · obtain rfl := List.mem_singleton.1 hc
      decide
  induction before, word using snake.induct with
  | case1 => simp [snake] at hc
  | case2 before d =>
    simp only [snake, List.mem_singleton] at hc
    subst hc
    exact isNamePart_small (h d (by simp))
  | case3 before d next rest breaks ih =>
    simp only [snake, breaks, if_true, List.mem_append, List.mem_cons] at hc
    rcases hc with hc | rfl | hc | hc
    · exact underscore hc
    · exact isNamePart_small (h d (by simp))
    · exact underscore hc
    · exact ih (fun x hx => h x (List.mem_cons_of_mem _ hx)) hc
  | case4 before d next rest breaks ih =>
    simp only [snake, breaks, Bool.false_eq_true, if_false] at hc
    rcases List.mem_cons.1 hc with rfl | hc
    · exact isNamePart_small (h d (by simp))
    · exact ih (fun x hx => h x (List.mem_cons_of_mem _ hx)) hc

theorem isNamePart_digitChar (n : Nat) (h : n < 16) : isNamePart n.digitChar = true := by
  have table : ∀ k : Fin 16, isNamePart (Nat.digitChar k) = true := by decide
  exact table ⟨n, h⟩

theorem isNamePart_of_mem_toDigits (n : Nat) {c : Char} (hc : c ∈ Nat.toDigits 16 n) :
    isNamePart c = true := by
  induction n using Nat.strongRecOn generalizing c with
  | ind n ih =>
    rw [Nat.toDigits_eq_if (by decide)] at hc
    split at hc
    · next small =>
      obtain rfl := List.mem_singleton.1 hc
      exact isNamePart_digitChar n small
    · rcases List.mem_append.1 hc with hc | hc
      · exact ih (n / 16) (by omega) hc
      · obtain rfl := List.mem_singleton.1 hc
        exact isNamePart_digitChar _ (Nat.mod_lt _ (by decide))

theorem isNamePart_of_mem_signWord (d : Char) {c : Char} (hc : c ∈ signWord d) :
    isNamePart c = true := by
  have of_word {w : String} (parts : w.toList.all isNamePart = true) (hc : c ∈ w.toList) :
      isNamePart c = true :=
    List.all_eq_true.1 parts c hc
  unfold signWord at hc
  split at hc
  case h_9 =>
    simp only [Text.hex, List.mem_cons, List.mem_append, List.mem_replicate] at hc
    rcases hc with rfl | ⟨-, rfl⟩ | hc
    · decide
    · decide
    · exact isNamePart_of_mem_toDigits _ hc
  all_goals exact of_word (by decide) hc

theorem isNamePart_of_mem_finishWord {word : List Char} (h : ∀ c ∈ word, isNamePart c = true)
    {w : List Char} (hw : w ∈ finishWord word) {c : Char} (hc : c ∈ w) : isNamePart c = true := by
  cases word with
  | nil => simp [finishWord] at hw
  | cons d rest =>
    simp only [finishWord, List.mem_singleton] at hw
    subst hw
    exact isNamePart_of_mem_snake none (d :: rest) h hc

/-- Every word of a name is made of what may stand in an identifier. -/
theorem isNamePart_of_mem_nameWords (word name : List Char) (h : ∀ c ∈ word, isNamePart c = true)
    {w : List Char} (hw : w ∈ nameWords word name) {c : Char} (hc : c ∈ w) :
    isNamePart c = true := by
  induction name generalizing word with
  | nil => exact isNamePart_of_mem_finishWord h hw hc
  | cons d rest ih =>
    have none : ∀ x ∈ ([] : List Char), isNamePart x = true := by simp
    simp only [nameWords] at hw
    split at hw
    · rcases List.mem_append.1 hw with hw | hw
      · exact isNamePart_of_mem_finishWord h hw hc
      · exact ih [] none hw
    · split at hw
      · next part =>
        refine ih (word ++ [d]) ?_ hw
        intro x hx
        rcases List.mem_append.1 hx with hx | hx
        · exact h x hx
        · obtain rfl := List.mem_singleton.1 hx
          exact isNamePart_of_isWordPart part
      · rcases List.mem_append.1 hw with hw | hw
        · exact isNamePart_of_mem_finishWord h hw hc
        · rcases List.mem_cons.1 hw with rfl | hw
          · exact isNamePart_of_mem_signWord d hc
          · exact ih [] none hw

/-! ## Whole names -/

theorem isNamePart_of_mem_intercalate {words : List (List Char)}
    (h : ∀ w ∈ words, ∀ c ∈ w, isNamePart c = true) {c : Char}
    (hc : c ∈ ['_'].intercalate words) : isNamePart c = true := by
  induction words with
  | nil => simp at hc
  | cons w rest ih =>
    have first := h w (by simp)
    have later := ih (fun v hv => h v (List.mem_cons_of_mem _ hv))
    cases rest with
    | nil => exact first c (by simpa using hc)
    | cons v more =>
      rw [List.intercalate_cons_cons] at hc
      simp only [List.mem_append, List.mem_singleton] at hc
      rcases hc with (hc | rfl) | hc
      · exact first c hc
      · decide
      · exact later hc

/-- Words joined by underscores are an identifier, with `v_` in front where it is needed. -/
theorem isIdentifier_joinWords {words : List (List Char)}
    (h : ∀ w ∈ words, ∀ c ∈ w, isNamePart c = true) : isIdentifier (joinWords words) = true := by
  have parts : ∀ c ∈ ['_'].intercalate words, isNamePart c = true :=
    fun c hc => isNamePart_of_mem_intercalate h hc
  unfold joinWords
  generalize ['_'].intercalate words = name at parts
  cases name with
  | nil => decide
  | cons first rest =>
    have all : (first :: rest).all isNamePart = true := List.all_eq_true.2 parts
    simp only
    split
    · simp only [isIdentifier, List.all_cons] at all ⊢
      simp only [all, Bool.and_true]
      decide
    · next plain =>
      have start : isNameStart first = true := by
        simpa [isNamePart, plain] using parts first (by simp)
      simp only [List.all_cons, Bool.and_eq_true] at all
      simp [isIdentifier, start, all.2]

/-- The C spelling of any name is a C identifier. -/
theorem isIdentifier_nameChars (name : List Char) : isIdentifier (nameChars name) = true := by
  unfold nameChars
  split
  · assumption
  · exact isIdentifier_joinWords fun w hw c hc =>
      isNamePart_of_mem_nameWords [] name (by simp) hw hc

theorem isIdentifier_spell (name : String) : isIdentifier (spell name).toList = true := by
  rw [spell, String.toList_ofList]
  exact isIdentifier_nameChars name.toList

/-- A name that is a C identifier keeps its spelling. -/
theorem spell_of_isIdentifier {name : String} (h : isIdentifier name.toList = true) :
    spell name = name := by
  simp [spell, nameChars, h]

end LittleLisp.C
