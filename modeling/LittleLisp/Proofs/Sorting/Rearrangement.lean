import LittleLisp.Sorting

/-!
# Rearranging a range

Every step of the sort exchanges items inside one range of the array. Such a rearrangement leaves
everything outside the range in its place (`Rearranged.get_outside`) and has inside only what was
inside before (`Rearranged.exists_source`), so that what holds of all items of a range, or of all
items of two ranges, holds after it as well (`Precedes.rearrange`).

Items are compared by `less`, of which two things are assumed (`IsOrder`): it does not hold both
ways, and what is not less than something is not less than anything before that either.
-/

namespace LittleLisp.Sorting

variable {α : Type}

/-- Items can be ordered by `less`. Items of which none is less than the other are level. -/
structure IsOrder (less : α → α → Bool) : Prop where
  asymm {x y : α} : less x y = true → less y x = false
  trans {x y z : α} : less y x = false → less z y = false → less z x = false

/-- What some exchanges of items with indices from `a` up to `b` make of an array. -/
inductive Rearranged (a b : Nat) (xs : Array α) : Array α → Prop where
  | refl : Rearranged a b xs xs
  | swap {ys : Array α} {i j : Nat} (hi : a ≤ i ∧ i < b) (hj : a ≤ j ∧ j < b)
      (h : Rearranged a b xs ys) : Rearranged a b xs (ys.swapIfInBounds i j)

/-- The items with indices from `a` up to `b` are in order. -/
def SortedOn (less : α → α → Bool) (xs : Array α) (a b : Nat) : Prop :=
  ∀ i j, a ≤ i → i < j → j < b → lessAt less xs j i = false

/-- No item with an index from `m` up to `b` is less than one with an index from `a` up to `m`. -/
def Precedes (less : α → α → Bool) (xs : Array α) (a m b : Nat) : Prop :=
  ∀ i j, a ≤ i → i < m → m ≤ j → j < b → lessAt less xs j i = false

/-- An array with a range sorted: its items are rearranged there, and in order. -/
structure Sorts (less : α → α → Bool) (a b : Nat) (xs ys : Array α) : Prop where
  rearranged : Rearranged a b xs ys
  sorted : SortedOn less ys a b

/-! ## Exchanging two items -/

theorem get_swap {xs : Array α} {i j : Nat} (hi : i < xs.size) (hj : j < xs.size) (k : Nat) :
    (xs.swapIfInBounds i j)[k]? =
      if k = i then xs[j]? else if k = j then xs[i]? else xs[k]? := by
  rw [Array.swapIfInBounds_def, dif_pos hi, dif_pos hj, Array.getElem?_swap hi hj,
    Array.getElem?_eq_getElem hi, Array.getElem?_eq_getElem hj]
  by_cases first : k = i
  · subst first
    by_cases same : j = k
    · subst same
      simp
    · simp [same]
  · by_cases second : k = j
    · subst second
      simp [first]
    · simp [first, second, Ne.symm first, Ne.symm second]

theorem get_swap_left {xs : Array α} {i j : Nat} (hi : i < xs.size) (hj : j < xs.size) :
    (xs.swapIfInBounds i j)[i]? = xs[j]? := by
  rw [get_swap hi hj, if_pos rfl]

theorem get_swap_right {xs : Array α} {i j : Nat} (hi : i < xs.size) (hj : j < xs.size) :
    (xs.swapIfInBounds i j)[j]? = xs[i]? := by
  rw [get_swap hi hj]
  split
  · next same => rw [same]
  · rw [if_pos rfl]

/-- Nothing is exchanged with an item that is missing. -/
theorem swap_eq_self {xs : Array α} {i j : Nat} (missing : ¬ (i < xs.size ∧ j < xs.size)) :
    xs.swapIfInBounds i j = xs := by
  rw [Array.swapIfInBounds_def]
  split
  · next first => rw [dif_neg fun second => missing ⟨first, second⟩]
  · rfl

theorem get_swap_of_ne (xs : Array α) {i j k : Nat} (hi : k ≠ i) (hj : k ≠ j) :
    (xs.swapIfInBounds i j)[k]? = xs[k]? := by
  by_cases bounds : i < xs.size ∧ j < xs.size
  · rw [get_swap bounds.1 bounds.2, if_neg hi, if_neg hj]
  · rw [swap_eq_self bounds]

/-! ## Comparing items -/

/-- One item is less than another one; none is less if one of them is missing. -/
def lessItem (less : α → α → Bool) : Option α → Option α → Bool
  | some x, some y => less x y
  | _, _ => false

theorem lessAt_eq (less : α → α → Bool) (xs : Array α) (i j : Nat) :
    lessAt less xs i j = lessItem less xs[i]? xs[j]? := by
  rw [lessAt]
  cases xs[i]? <;> cases xs[j]? <;> rfl

/-- Comparing looks at the two items only. -/
theorem lessAt_congr {less : α → α → Bool} {xs ys : Array α} {i j i' j' : Nat}
    (left : ys[i]? = xs[i']?) (right : ys[j]? = xs[j']?) :
    lessAt less ys i j = lessAt less xs i' j' := by
  rw [lessAt_eq, lessAt_eq, left, right]

namespace IsOrder

variable {less : α → α → Bool} {xs : Array α} {i j k : Nat}

theorem asymm_item (o : IsOrder less) {x y : Option α} (h : lessItem less x y = true) :
    lessItem less y x = false := by
  cases x with
  | none => rw [lessItem.eq_2 _ _ _ (by simp)] at h; cases h
  | some x =>
    cases y with
    | none => rfl
    | some y => exact o.asymm h

theorem trans_item (o : IsOrder less) {x y z : Option α} (some_y : y ≠ none)
    (first : lessItem less y x = false) (second : lessItem less z y = false) :
    lessItem less z x = false := by
  obtain ⟨y, rfl⟩ := Option.ne_none_iff_exists'.1 some_y
  cases z with
  | none => rw [lessItem.eq_2 _ _ _ (by simp)]
  | some z =>
    cases x with
    | none => rfl
    | some x => exact o.trans first second

theorem asymm_at (o : IsOrder less) (h : lessAt less xs i j = true) :
    lessAt less xs j i = false := by
  rw [lessAt_eq] at h ⊢
  exact o.asymm_item h

theorem trans_at (o : IsOrder less) (inside : j < xs.size) (first : lessAt less xs j i = false)
    (second : lessAt less xs k j = false) : lessAt less xs k i = false := by
  rw [lessAt_eq] at first second ⊢
  exact o.trans_item (by simpa using inside) first second

theorem irrefl_item (o : IsOrder less) (x : Option α) : lessItem less x x = false := by
  cases h : lessItem less x x with
  | false => rfl
  | true => rw [← h, o.asymm_item h]

theorem irrefl_at (o : IsOrder less) (xs : Array α) (i : Nat) : lessAt less xs i i = false := by
  rw [lessAt_eq]
  exact o.irrefl_item _

end IsOrder

/-! ## Rearrangements -/

namespace Rearranged

variable {a b c d : Nat} {xs ys zs : Array α}

theorem one (xs : Array α) {i j : Nat} (hi : a ≤ i ∧ i < b) (hj : a ≤ j ∧ j < b) :
    Rearranged a b xs (xs.swapIfInBounds i j) :=
  .swap hi hj .refl

theorem trans (first : Rearranged a b xs ys) (second : Rearranged a b ys zs) :
    Rearranged a b xs zs := by
  induction second with
  | refl => exact first
  | swap hi hj _ ih => exact .swap hi hj ih

theorem widen (h : Rearranged c d xs ys) (left : a ≤ c) (right : d ≤ b) :
    Rearranged a b xs ys := by
  induction h with
  | refl => exact .refl
  | swap hi hj _ ih =>
    exact .swap ⟨by omega, by omega⟩ ⟨by omega, by omega⟩ ih

@[simp] theorem size_eq (h : Rearranged a b xs ys) : ys.size = xs.size := by
  induction h with
  | refl => rfl
  | swap hi hj _ ih => rw [Array.size_swapIfInBounds, ih]

theorem perm (h : Rearranged a b xs ys) : ys.toList.Perm xs.toList := by
  induction h with
  | refl => exact .refl _
  | @swap ys i j hi hj _ ih =>
    refine .trans ?_ ih
    by_cases bounds : i < ys.size ∧ j < ys.size
    · rw [Array.swapIfInBounds_def, dif_pos bounds.1, dif_pos bounds.2]
      exact Array.perm_iff_toList_perm.1 (Array.swap_perm bounds.1 bounds.2)
    · rw [swap_eq_self bounds]

theorem get_outside (h : Rearranged a b xs ys) {k : Nat} (outside : k < a ∨ b ≤ k) :
    ys[k]? = xs[k]? := by
  induction h with
  | refl => rfl
  | swap hi hj _ ih => rw [get_swap_of_ne _ (by omega) (by omega), ih]

/-- Every item comes from the same range, or stays where it is. -/
theorem exists_source (h : Rearranged a b xs ys) (k : Nat) :
    ∃ k', ys[k]? = xs[k']? ∧ (k' = k ∨ (a ≤ k ∧ k < b) ∧ a ≤ k' ∧ k' < b) := by
  induction h generalizing k with
  | refl => exact ⟨k, rfl, .inl rfl⟩
  | @swap ys i j hi hj _ ih =>
    have moved (l : Nat) (hl : a ≤ l ∧ l < b) (hk : a ≤ k ∧ k < b)
        (get : (ys.swapIfInBounds i j)[k]? = ys[l]?) :
        ∃ k', (ys.swapIfInBounds i j)[k]? = xs[k']? ∧
          (k' = k ∨ (a ≤ k ∧ k < b) ∧ a ≤ k' ∧ k' < b) := by
      obtain ⟨k', same, here⟩ := ih l
      refine ⟨k', get.trans same, .inr ⟨hk, ?_⟩⟩
      rcases here with rfl | here
      · exact hl
      · exact here.2
    by_cases bounds : i < ys.size ∧ j < ys.size
    · by_cases first : k = i
      · subst first
        exact moved j hj hi (get_swap_left bounds.1 bounds.2)
      · by_cases second : k = j
        · subst second
          exact moved i hi hj (get_swap_right bounds.1 bounds.2)
        · obtain ⟨k', same, here⟩ := ih k
          exact ⟨k', (get_swap_of_ne ys first second).trans same, here⟩
    · rw [swap_eq_self bounds]
      exact ih k

/-- What holds of all items of a range holds of them after a rearrangement inside it. -/
theorem forall_items (h : Rearranged c d xs ys) (left : a ≤ c) (right : d ≤ b)
    {p : Option α → Prop} (all : ∀ k, a ≤ k → k < b → p xs[k]?) (k : Nat) (low : a ≤ k)
    (high : k < b) : p ys[k]? := by
  obtain ⟨k', same, rfl | ⟨-, here⟩⟩ := h.exists_source k
  · exact same ▸ all k' low high
  · exact same ▸ all k' (Nat.le_trans left here.1) (Nat.lt_of_lt_of_le here.2 right)

end Rearranged

/-! ## Sorted ranges -/

section Ranges

variable {less : α → α → Bool} {a b c d m : Nat} {xs ys : Array α}

theorem sortedOn_of_short (less : α → α → Bool) (xs : Array α) (h : b ≤ a + 1) :
    SortedOn less xs a b := by
  intro i j hi hij hj
  omega

theorem SortedOn.congr (h : SortedOn less xs a b) (same : ∀ k, a ≤ k → k < b → ys[k]? = xs[k]?) :
    SortedOn less ys a b := by
  intro i j hi hij hj
  rw [lessAt_congr (same j (by omega) hj) (same i hi (by omega))]
  exact h i j hi hij hj

/-- A sorted range stays so if something outside it is rearranged. -/
theorem SortedOn.keep (h : SortedOn less xs a b) (r : Rearranged c d xs ys)
    (apart : d ≤ a ∨ b ≤ c) : SortedOn less ys a b :=
  h.congr fun k low high => r.get_outside (by omega)

/-- Two sorted ranges, the first one before the second one, are one sorted range. -/
theorem SortedOn.append (first : SortedOn less xs a m) (second : SortedOn less xs m b)
    (between : Precedes less xs a m b) : SortedOn less xs a b := by
  intro i j hi hij hj
  by_cases before : j < m
  · exact first i j hi hij before
  · by_cases after : m ≤ i
    · exact second i j after hij hj
    · exact between i j hi (by omega) (by omega) hj

/-- Neighbours in order make a sorted range. -/
theorem sortedOn_of_neighbours (o : IsOrder less) (inside : b ≤ xs.size)
    (next : ∀ k, a < k → k < b → lessAt less xs k (k - 1) = false) : SortedOn less xs a b := by
  intro i j hi hij hj
  induction j with
  | zero => omega
  | succ j ih =>
    have step := next (j + 1) (by omega) hj
    rw [Nat.add_sub_cancel] at step
    rcases Nat.lt_or_eq_of_le (Nat.le_of_lt_succ hij) with before | rfl
    · exact o.trans_at (by omega) (ih before (by omega)) step
    · exact step

/-- Of two ranges the first one has no items greater than some item, and the second one none that
are less. -/
theorem precedes_of_item (o : IsOrder less) {x : Option α} (item : x ≠ none)
    (below : ∀ k, a ≤ k → k < m → lessItem less x xs[k]? = false)
    (above : ∀ k, m ≤ k → k < b → lessItem less xs[k]? x = false) : Precedes less xs a m b := by
  intro i j hi him hmj hj
  rw [lessAt_eq]
  exact o.trans_item item (below i hi him) (above j hmj hj)

theorem Precedes.narrow (h : Precedes less xs a m b) (left : a ≤ c) (right : d ≤ b) :
    Precedes less xs c m d :=
  fun i j hi him hmj hj => h i j (Nat.le_trans left hi) him hmj (Nat.lt_of_lt_of_le hj right)

/-- A rearrangement inside one of the two ranges, or outside both. -/
theorem Precedes.rearrange (h : Precedes less xs a m b) (r : Rearranged c d xs ys)
    (place : d ≤ a ∨ (a ≤ c ∧ d ≤ m) ∨ (m ≤ c ∧ d ≤ b) ∨ b ≤ c) : Precedes less ys a m b := by
  intro i j hi him hmj hj
  obtain ⟨i', left, from_i⟩ := r.exists_source i
  obtain ⟨j', right, from_j⟩ := r.exists_source j
  rw [lessAt_congr right left]
  exact h i' j' (by omega) (by omega) (by omega) (by omega)

/-- What stands before a range stands before the second part of it if the first part does. -/
theorem Precedes.extend (before : Precedes less xs 0 a b) (parts : Precedes less xs a m b)
    (le : a ≤ m) : Precedes less xs 0 m b := by
  intro i j hi him hmj hj
  by_cases left : i < a
  · exact before i j hi left (Nat.le_trans le hmj) hj
  · exact parts i j (by omega) him hmj hj

end Ranges

/-! ## Scanning -/

/-- Where a scan upwards stops. -/
structure ScansUp (pass : Nat → Bool) (i stop result : Nat) : Prop where
  low : i ≤ result
  high : result ≤ stop
  passed : ∀ k, i ≤ k → k < result → pass k = true
  fails : result < stop → pass result = false

theorem scansUp (pass : Nat → Bool) (i count : Nat) :
    ScansUp pass i (i + count) (scanUp pass i count) := by
  induction count generalizing i with
  | zero => exact ⟨Nat.le_refl _, Nat.le_refl _, fun k low high => absurd high (Nat.not_lt.2 low),
      fun h => absurd h (Nat.lt_irrefl _)⟩
  | succ count ih =>
    rw [scanUp]
    split
    · next here =>
      obtain ⟨low, high, passed, fails⟩ := ih (i + 1)
      refine ⟨by omega, by omega, fun k first last => ?_, fun h => fails (by omega)⟩
      rcases Nat.eq_or_lt_of_le first with rfl | later
      · exact here
      · exact passed k later last
    · next here =>
      exact ⟨Nat.le_refl _, by omega, by omega, fun _ => Bool.eq_false_iff.2 here⟩

/-- Where a scan downwards from `j` stops; it does not look at places before `start`. -/
structure ScansDown (pass : Nat → Bool) (start j result : Nat) : Prop where
  low : start ≤ result + 1
  high : result ≤ j
  passed : ∀ k, result < k → k ≤ j → pass k = true
  fails : start ≤ result → pass result = false

theorem scansDown (pass : Nat → Bool) {start j : Nat} (pos : 0 < start) (le : start ≤ j + 1) :
    ScansDown pass start j (scanDown pass j (j + 1 - start)) := by
  generalize left : j + 1 - start = count
  induction count generalizing j with
  | zero =>
    refine ⟨le, Nat.le_refl _, fun k low high => absurd low (Nat.not_lt.2 high), fun reached => ?_⟩
    rw [scanDown] at reached
    omega
  | succ count ih =>
    rw [scanDown]
    split
    · next here =>
      obtain ⟨low, high, passed, fails⟩ := @ih (j - 1) (by omega) (by omega)
      refine ⟨low, by omega, fun k first last => ?_, fails⟩
      rcases Nat.eq_or_lt_of_le last with rfl | before
      · exact here
      · exact passed k first (by omega)
    · next here =>
      exact ⟨le, Nat.le_refl _, fun k low high => absurd low (Nat.not_lt.2 high),
        fun _ => Bool.eq_false_iff.2 here⟩

end LittleLisp.Sorting
