import LittleLisp.Proofs.Sorting.Rearrangement

/-!
# Sorting by insertion

An item moves down to its place among sorted items: on its way it is the only one that may be less
than items before it (`SortedBut`). A range that is nearly sorted is sorted by moving a few items in
this way, and the sort knows whether that was enough (`sorted_of_nearlySort`).
-/

namespace LittleLisp.Sorting

variable {α : Type} {less : α → α → Bool} {a b i lo : Nat} {xs : Array α}

/-! ## Moving an item down -/

/-- The items with indices from `a` up to `b` are in order, but for the one at `hole`, which may be
less than those before it. -/
def SortedBut (less : α → α → Bool) (xs : Array α) (a b hole : Nat) : Prop :=
  ∀ i j, a ≤ i → i < j → j < b → j ≠ hole → lessAt less xs j i = false

theorem rearranged_moveDown (le : lo ≤ i) :
    Rearranged lo (i + 1) xs (moveDown less lo xs i) := by
  induction i generalizing xs with
  | zero => exact .refl
  | succ i ih =>
    rw [moveDown]
    split
    · next moves =>
      have swap : Rearranged lo (i + 1 + 1) xs (xs.swapIfInBounds (i + 1) i) :=
        .one xs (by omega) (by omega)
      exact swap.trans ((ih (by omega)).widen (Nat.le_refl _) (by omega))
    · exact .refl

/-- An item that is less than its neighbour changes places with it, and nothing else gets out of
order. -/
theorem SortedBut.swap (o : IsOrder less) (h : SortedBut less xs a b (i + 1)) (low : a ≤ i)
    (high : i + 1 < b) (inside : b ≤ xs.size) (less_at : lessAt less xs (i + 1) i = true) :
    SortedBut less (xs.swapIfInBounds (i + 1) i) a b i := by
  have here : i + 1 < xs.size := by omega
  have there : i < xs.size := by omega
  have moved := get_swap_left here there
  have kept := get_swap_right here there
  have other {k : Nat} (up : k ≠ i + 1) (down : k ≠ i) := get_swap_of_ne xs up down
  intro p q hp hpq hq hole
  by_cases upper : q = i + 1
  · subst upper
    by_cases lower : p = i
    · subst lower
      rw [lessAt_congr moved kept]
      exact o.asymm_at less_at
    · rw [lessAt_congr moved (other (by omega) lower)]
      exact h p i hp (by omega) (by omega) (by omega)
  · -- The item `q` stays, and so do its places in the order.
    have stays := other upper hole
    by_cases lower : p = i
    · subst lower
      rw [lessAt_congr stays kept]
      exact h (p + 1) q (by omega) (by omega) hq upper
    · by_cases top : p = i + 1
      · subst top
        rw [lessAt_congr stays moved]
        exact h i q (by omega) (by omega) hq upper
      · rw [lessAt_congr stays (other top lower)]
        exact h p q hp hpq hq upper

theorem sortedOn_moveDown (o : IsOrder less) (low : a ≤ i) (high : i < b) (inside : b ≤ xs.size)
    (h : SortedBut less xs a b i) : SortedOn less (moveDown less a xs i) a b := by
  induction i generalizing xs with
  | zero => exact fun p q hp hpq hq => h p q hp hpq hq (by omega)
  | succ i ih =>
    rw [moveDown]
    split
    · next moves =>
      exact ih (by omega) (by omega) (by rwa [Array.size_swapIfInBounds])
        (h.swap o (by omega) high inside moves.2)
    · next rests =>
      intro p q hp hpq hq
      by_cases hole : q = i + 1
      · subst hole
        have neighbour : lessAt less xs (i + 1) i = false := by
          rw [Bool.eq_false_iff]
          exact fun moves => rests ⟨by omega, moves⟩
        rcases Nat.lt_or_eq_of_le (Nat.le_of_lt_succ hpq) with before | rfl
        · exact o.trans_at (by omega) (h p i hp before (by omega) (by omega)) neighbour
        · exact neighbour
      · exact h p q hp hpq hq hole

/-- An item does not move beyond the items that stand before its range. -/
theorem moveDown_eq_of_precedes (before : Precedes less xs 0 a (i + 1)) (low : a ≤ i) :
    moveDown less 0 xs i = moveDown less a xs i := by
  induction i generalizing xs with
  | zero => rfl
  | succ i ih =>
    rw [moveDown, moveDown]
    by_cases moves : lessAt less xs (i + 1) i = true
    · have inner : a ≤ i := by
        refine Nat.le_of_not_lt fun first => ?_
        have last := before i (i + 1) (Nat.zero_le _) first low (Nat.lt_succ_self _)
        rw [moves] at last
        cases last
      rw [if_pos ⟨Nat.succ_pos _, moves⟩, if_pos ⟨by omega, moves⟩]
      refine ih (Precedes.narrow (b := i + 1 + 1) ?_ (Nat.le_refl _) (by omega)) inner
      exact before.rearrange (.one xs (a := a) (b := i + 1 + 1) (by omega) (by omega)) (by omega)
    · rw [if_neg fun h => moves h.2, if_neg fun h => moves h.2]

/-! ## Insertion -/

theorem sorts_foldl_moveDown (o : IsOrder less) (n s : Nat) (sorted : SortedOn less xs a s)
    (pos : a < s) (inside : s + n ≤ xs.size) :
    Sorts less a (s + n) xs ((List.range' s n).foldl (fun xs i => moveDown less a xs i) xs) := by
  induction n generalizing s xs with
  | zero => exact ⟨.refl, sorted⟩
  | succ n ih =>
    rw [List.range'_succ, List.foldl_cons]
    have moved : Rearranged a (s + 1) xs (moveDown less a xs s) := rearranged_moveDown (by omega)
    have longer : SortedOn less (moveDown less a xs s) a (s + 1) :=
      sortedOn_moveDown o (by omega) (Nat.lt_succ_self s) (by omega)
        fun p q hp hpq hq hole => sorted p q hp hpq (by omega)
    obtain ⟨rearranged, sorted⟩ := ih (s + 1) longer (by omega) (by rw [moved.size_eq]; omega)
    have stop : s + 1 + n = s + (n + 1) := by omega
    rw [stop] at rearranged sorted
    exact ⟨(moved.widen (Nat.le_refl _) (by omega)).trans rearranged, sorted⟩

theorem sorts_insertionSort (o : IsOrder less) (inside : b ≤ xs.size) :
    Sorts less a b xs (insertionSort less xs a b) := by
  rw [insertionSort]
  by_cases short : b ≤ a + 1
  · rw [Nat.sub_eq_zero_of_le short]
    exact ⟨.refl, sortedOn_of_short less xs short⟩
  · have stop : a + 1 + (b - (a + 1)) = b := by omega
    have sorts := sorts_foldl_moveDown o (b - (a + 1)) (a + 1)
      (sortedOn_of_short less xs (Nat.le_refl _)) (Nat.lt_succ_self a) (by omega)
    rwa [stop] at sorts

/-! ## Ranges that are nearly sorted -/

theorem rearranged_moveUp {steps : Nat} (low : a < i) (high : i + steps ≤ b) :
    Rearranged a b xs (moveUp less xs i steps) := by
  induction steps generalizing xs i with
  | zero => exact .refl
  | succ steps ih =>
    rw [moveUp]
    split
    · have swap : Rearranged a b xs (xs.swapIfInBounds i (i - 1)) :=
        .one xs (by omega) (by omega)
      exact swap.trans (ih (by omega) (by omega))
    · exact .refl

/-- The sorted start of a range reaches as far as neighbours are in order. -/
theorem SortedOn.scanUp (o : IsOrder less) (sorted : SortedOn less xs a i) {j : Nat}
    (scan : ScansUp (fun k => !lessAt less xs k (k - 1)) i b j) (inside : b ≤ xs.size) :
    SortedOn less xs a j := by
  refine sortedOn_of_neighbours o (Nat.le_trans scan.high inside) fun k low high => ?_
  by_cases start : k < i
  · exact sorted (k - 1) k (by omega) (by omega) start
  · simpa using scan.passed k (by omega) high

/-- One item that is less than its neighbour moves down to its place. -/
theorem sortedOn_shift (o : IsOrder less) (sorted : SortedOn less xs a i) (low : a < i)
    (high : i < b) (inside : b ≤ xs.size) (before : Precedes less xs 0 a b) :
    let ys := xs.swapIfInBounds i (i - 1)
    Sorts less a i ys (if 2 ≤ i - a then moveDown less 0 ys (i - 1) else ys) := by
  intro ys
  split
  · have swap : Rearranged a b xs ys := .one xs (by omega) (by omega)
    have start : Precedes less ys 0 a (i - 1 + 1) :=
      (before.rearrange swap (by omega)).narrow (Nat.le_refl _) (by omega)
    have stop : i - 1 + 1 = i := by omega
    rw [moveDown_eq_of_precedes start (by omega)]
    constructor
    · exact (rearranged_moveDown (by omega)).widen (Nat.le_refl _) (by omega)
    · refine sortedOn_moveDown o (by omega) (by omega) (by rw [swap.size_eq]; omega) ?_
      intro p q hp hpq hq hole
      rw [lessAt_congr (get_swap_of_ne xs (by omega) (by omega))
        (get_swap_of_ne xs (by omega) (by omega))]
      exact sorted p q hp hpq hq
  · exact ⟨.refl, sortedOn_of_short less ys (by omega)⟩

/-- A range that is nearly sorted is rearranged, and it is sorted if the sort says so. -/
theorem sorted_of_nearlySort (o : IsOrder less) (tries : Nat) (low : a < i) (high : i ≤ b)
    (inside : b ≤ xs.size) (before : Precedes less xs 0 a b) (sorted : SortedOn less xs a i) :
    Rearranged a b xs (nearlySort less a b tries xs i).1 ∧
      ((nearlySort less a b tries xs i).2 = true →
        SortedOn less (nearlySort less a b tries xs i).1 a b) := by
  induction tries generalizing xs i with
  | zero => exact ⟨.refl, fun h => by cases h⟩
  | succ tries ih =>
    have scan := scansUp (fun k => !lessAt less xs k (k - 1)) i (b - i)
    rw [Nat.add_sub_cancel' high] at scan
    rw [nearlySort]
    generalize scanUp (fun k => !lessAt less xs k (k - 1)) i (b - i) = j at scan
    have longer := sorted.scanUp o scan inside
    have first := scan.low
    have last := scan.high
    simp only
    split
    · next all =>
      subst all
      exact ⟨.refl, fun _ => longer⟩
    · split
      · exact ⟨.refl, fun h => by cases h⟩
      · have swap : Rearranged a b xs (xs.swapIfInBounds j (j - 1)) :=
          .one xs (by omega) (by omega)
        have shift := sortedOn_shift o longer (by omega) (by omega) inside before
        simp only at shift
        generalize (if 2 ≤ j - a then moveDown less 0 (xs.swapIfInBounds j (j - 1)) (j - 1)
          else xs.swapIfInBounds j (j - 1)) = ys at shift
        have up : Rearranged j b ys
            (if 2 ≤ b - j then moveUp less ys (j + 1) (b - (j + 1)) else ys) := by
          split
          · exact rearranged_moveUp (by omega) (by omega)
          · exact .refl
        generalize (if 2 ≤ b - j then moveUp less ys (j + 1) (b - (j + 1)) else ys) = zs at up
        have whole : Rearranged a b xs zs :=
          (swap.trans (shift.rearranged.widen (Nat.le_refl _) last)).trans
            (up.widen (by omega) (Nat.le_refl _))
        obtain ⟨rest, sorts⟩ := ih (by omega) last (by rw [whole.size_eq]; exact inside)
          (before.rearrange whole (by omega)) (shift.sorted.keep up (by omega))
        exact ⟨whole.trans rest, sorts⟩

end LittleLisp.Sorting
