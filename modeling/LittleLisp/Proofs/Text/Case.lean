import LittleLisp.Proofs.Text.Numeral
import LittleLisp.Text.Case

/-!
# Lower case

What is in lower case stays as it is when it is put into lower case again. The table of runs decides
this: no run holds a code point that another run, or the same one, moves something to.

Lower case and folding bring together at least the letters that ASCII has in two cases.
-/

namespace LittleLisp.Text

namespace CaseRun

/-- A code point stays or is moved by a run that holds it. -/
theorem apply_cases (runs : List CaseRun) (n : Nat) :
    apply runs n = n ∨ ∃ r ∈ runs, r.first ≤ n ∧ n ≤ r.last ∧ (n - r.first) % r.step = 0 ∧
      apply runs n = (n + r.shift).toNat := by
  induction runs with
  | nil => exact .inl rfl
  | cons r rest ih =>
    simp only [apply]
    split
    · exact .inl rfl
    · next above =>
      split
      · next inside => exact .inr ⟨r, by simp, by omega, inside.1, inside.2, rfl⟩
      · rcases ih with stays | ⟨s, hs, holds⟩
        · exact .inl stays
        · exact .inr ⟨s, List.mem_cons_of_mem _ hs, holds⟩

/-- Runs in ascending order hold no code point from `a` to `b`, or, if only those at even distances
from `a` matter, none of these. -/
def spares (a b : Nat) (even : Bool) : List CaseRun → Bool
  | [] => true
  | r :: rest =>
    Nat.blt b r.first ||
      ((Nat.blt r.last a || (even && r.step == 2 && (a + r.first) % 2 == 1)) && spares a b even rest)

theorem apply_of_spares {a b n : Nat} {even : Bool} {runs : List CaseRun}
    (h : spares a b even runs = true) (from_a : a ≤ n) (to_b : n ≤ b)
    (distance : even = true → (n - a) % 2 = 0) : apply runs n = n := by
  induction runs with
  | nil => rfl
  | cons r rest ih =>
    simp only [spares, Bool.or_eq_true, Bool.and_eq_true, Nat.blt_eq, beq_iff_eq] at h
    simp only [apply]
    split
    · rfl
    · rcases h with beyond | ⟨outside, later⟩
      · omega
      · rw [if_neg, ih later]
        rintro ⟨below, onStep⟩
        rcases outside with before | ⟨⟨is_even, two⟩, odd⟩
        · omega
        · rw [two] at onStep
          have := distance is_even
          omega

/-- Nothing is moved to a code point that is moved on. -/
theorem apply_lowerRuns_apply (n : Nat) :
    apply lowerRuns (apply lowerRuns n) = apply lowerRuns n := by
  have table : ∀ r ∈ lowerRuns, 0 ≤ r.first + r.shift ∧
      spares (r.first + r.shift).toNat (r.last + r.shift).toNat (r.step == 2 || r.first == r.last)
        lowerRuns = true := by
    decide +kernel
  rcases apply_cases lowerRuns n with stays | ⟨r, hr, above, below, onStep, moved⟩
  · rw [stays, stays]
  · obtain ⟨positive, spared⟩ := table r hr
    rw [moved]
    apply apply_of_spares spared
    · omega
    · omega
    · intro even
      rw [Bool.or_eq_true, beq_iff_eq, beq_iff_eq] at even
      rcases even with two | single
      · rw [two] at onStep
        omega
      · omega

end CaseRun

theorem lower_lower (c : Char) : lower (lower c) = lower c := by
  unfold lower
  by_cases valid : (CaseRun.apply lowerRuns c.toNat).isValidChar
  · rw [toNat_ofNat valid, CaseRun.apply_lowerRuns_apply]
  · have zero : Char.ofNat (CaseRun.apply lowerRuns c.toNat) = '\x00' := by
      rw [Char.ofNat, dif_neg valid]
      rfl
    rw [zero]
    rfl

/-- A text in lower case stays as it is. -/
@[simp] theorem toLower_toLower (s : String) : toLower (toLower s) = toLower s := by
  apply String.toList_injective
  simp [toLower, Function.comp_def, lower_lower]

/-! ## Letters of ASCII -/

/-- The lower case of ASCII moves nothing but its 26 capitals. -/
theorem toLower_cases (c : Char) : c.toLower = c ∨ ∃ i < 26, c = Char.ofNat (65 + i) := by
  unfold Char.toLower
  split
  · next capital =>
    have above : 65 ≤ c.toNat := UInt32.le_iff_toNat_le.1 capital.1
    have below : c.toNat ≤ 90 := UInt32.le_iff_toNat_le.1 capital.2
    refine .inr ⟨c.toNat - 65, by omega, ?_⟩
    rw [Nat.add_sub_cancel' above, Char.ofNat_toNat]
  · exact .inl rfl

theorem toList_asciiLower (s : String) : s.toLower.toList = s.toList.map Char.toLower :=
  String.toList_map

/-- Two texts differ at most in the case of letters of ASCII. -/
theorem asciiLower_eq_iff {s t : String} :
    s.toLower = t.toLower ↔ s.toList.map Char.toLower = t.toList.map Char.toLower := by
  rw [← String.toList_inj, toList_asciiLower, toList_asciiLower]

theorem lower_toLower (c : Char) : lower c.toLower = lower c := by
  have table : ∀ i < 26, lower (Char.ofNat (65 + i)).toLower = lower (Char.ofNat (65 + i)) := by
    decide +kernel
  rcases toLower_cases c with same | ⟨i, hi, rfl⟩
  · rw [same]
  · exact table i hi

theorem fold_toLower (c : Char) : fold c.toLower = fold c := by
  have table : ∀ i < 26, fold (Char.ofNat (65 + i)).toLower = fold (Char.ofNat (65 + i)) := by
    decide +kernel
  rcases toLower_cases c with same | ⟨i, hi, rfl⟩
  · rw [same]
  · exact table i hi

/-- The case of the letters of ASCII does not show in lower case. -/
@[simp] theorem toLower_asciiLower (s : String) : toLower s.toLower = toLower s := by
  apply String.toList_injective
  simp [toLower, toList_asciiLower, lower_toLower]

/-- The case of the letters of ASCII does not show after folding. -/
@[simp] theorem sameFolded_asciiLower (s word : String) :
    sameFolded s.toLower word = sameFolded s word := by
  simp [sameFolded, toList_asciiLower, Function.comp_def, fold_toLower]

end LittleLisp.Text
