import LittleLisp.Proofs.Sorting.Rearrangement

/-!
# Splitting a range

A range is split at a pivot by exchanging items that are on the wrong sides, from both ends, until
the ends meet (`Exchanged`). Then no item behind the pivot is less than one before it
(`Divided`). If no item of the range is less than the pivot, it is split into those that are level
with it and the greater ones, and the first part is sorted already (`sorted_of_splitEqual`).
-/

namespace LittleLisp.Sorting

variable {α : Type} {less : α → α → Bool} {xs : Array α} {a b pivot : Nat}

/-! ## Exchanging -/

/-- From the index `i` to the index `j`, items that pass stand below those that do not, and the ends
have met. -/
structure Exchanged (pass : Option α → Bool) (i j : Nat) (xs : Array α)
    (r : Array α × Nat × Nat) : Prop where
  rearranged : Rearranged i (j + 1) xs r.1
  meet : r.2.1 = r.2.2 + 1
  low : i ≤ r.2.1
  high : r.2.2 ≤ j
  below : ∀ k, i ≤ k → k < r.2.1 → pass r.1[k]? = true
  above : ∀ k, r.2.2 < k → k ≤ j → pass r.1[k]? = false

/-- Two items on the wrong sides are exchanged, and then what stands between them. -/
theorem Exchanged.around {pass : Option α → Bool} {i j i' j' : Nat} {r : Array α × Nat × Nat}
    (below : ∀ k, i ≤ k → k < i' → pass xs[k]? = true)
    (above : ∀ k, j' < k → k ≤ j → pass xs[k]? = false)
    (low : i ≤ i') (apart : i' < j') (high : j' ≤ j) (inside : j < xs.size)
    (wrong_low : pass xs[i']? = false) (wrong_high : pass xs[j']? = true)
    (rest : Exchanged pass (i' + 1) (j' - 1) (xs.swapIfInBounds i' j') r) :
    Exchanged pass i j xs r := by
  have swap : Rearranged i (j + 1) xs (xs.swapIfInBounds i' j') := .one xs (by omega) (by omega)
  have met := rest.meet
  have low' := rest.low
  have high' := rest.high
  refine ⟨swap.trans (rest.rearranged.widen (by omega) (by omega)), met, by omega, by omega,
    fun k hi hk => ?_, fun k hk hj => ?_⟩
  · rcases Nat.lt_or_ge i' k with later | before
    · exact rest.below k later hk
    · rw [rest.rearranged.get_outside (by omega)]
      rcases Nat.eq_or_lt_of_le before with rfl | before
      · rw [get_swap_left (by omega) (by omega)]
        exact wrong_high
      · rw [get_swap_of_ne xs (by omega) (by omega)]
        exact below k hi before
  · rcases Nat.lt_or_ge k j' with earlier | behind
    · exact rest.above k hk (by omega)
    · rw [rest.rearranged.get_outside (by omega)]
      rcases Nat.eq_or_lt_of_le behind with rfl | behind
      · rw [get_swap_right (by omega) (by omega)]
        exact wrong_low
      · rw [get_swap_of_ne xs (by omega) (by omega)]
        exact above k behind hj

/-- The ends of an exchange meet. The item at `a` decides which items may stay below, and it is not
moved itself. -/
theorem exchanged {low high : Array α → Nat → Bool} {pass : Option α → Bool} {x : Option α}
    (low_eq : ∀ ys : Array α, ys[a]? = x → ∀ k, low ys k = pass ys[k]?)
    (high_eq : ∀ ys : Array α, ys[a]? = x → ∀ k, high ys k = !pass ys[k]?) (steps : Nat) {i j : Nat}
    (here : xs[a]? = x) (after : a < i) (le : i ≤ j + 1) (inside : j < xs.size)
    (enough : j + 1 - i < steps) : Exchanged pass i j xs (exchange low high steps xs i j) := by
  induction steps generalizing xs i j with
  | zero => omega
  | succ steps ih =>
    have up := scansUp (low xs) i (j + 1 - i)
    rw [Nat.add_sub_cancel' le] at up
    rw [exchange]
    generalize scanUp (low xs) i (j + 1 - i) = i' at up
    have first := up.low
    have last := up.high
    have down := scansDown (high xs) (Nat.zero_lt_of_lt (Nat.lt_of_lt_of_le after first)) last
    generalize scanDown (high xs) j (j + 1 - i') = j' at down
    have below (k : Nat) (hi : i ≤ k) (hk : k < i') : pass xs[k]? = true := by
      rw [← low_eq xs here]
      exact up.passed k hi hk
    have above (k : Nat) (hk : j' < k) (hj : k ≤ j) : pass xs[k]? = false := by
      simpa [high_eq xs here] using down.passed k hk hj
    have reach := down.low
    have bound := down.high
    split
    · next met =>
      have meet : i' = j' + 1 := by omega
      exact ⟨.refl, meet, first, by omega, below, above⟩
    · next apart =>
      -- Both ends stand at items that are on the wrong side, so they are different ones.
      have wrong_low : pass xs[i']? = false := by
        rw [← low_eq xs here]
        exact up.fails (by omega)
      have wrong_high : pass xs[j']? = true := by
        simpa [high_eq xs here] using down.fails (by omega)
      have differ : i' ≠ j' := by
        rintro rfl
        rw [wrong_low] at wrong_high
        cases wrong_high
      have swap : Rearranged i (j + 1) xs (xs.swapIfInBounds i' j') :=
        .one xs (by omega) (by omega)
      exact .around below above first (by omega) bound inside wrong_low wrong_high
        (ih ((swap.get_outside (.inl after)).trans here) (by omega) (by omega)
          (by rw [swap.size_eq]; omega) (by omega))

/-! ## Splitting at a pivot -/

/-- A range is rearranged around the item at `mid`: no item before it is greater, and no item behind
it is less. -/
structure Divided (less : α → α → Bool) (a mid b : Nat) (xs ys : Array α) : Prop where
  rearranged : Rearranged a b xs ys
  low : a ≤ mid
  high : mid < b
  before : Precedes less ys a mid b
  behind : Precedes less ys a (mid + 1) b

/-- The first exchange of a split is one like the others. -/
theorem split_eq_exchange (less : α → α → Bool) (xs : Array α) (pivot : Nat) (lt : a < b) :
    ∃ already, split less xs a b pivot =
      let r := exchange (fun xs i => lessAt less xs i a) (fun xs j => !lessAt less xs j a)
        (b - a + 1) (xs.swapIfInBounds a pivot) (a + 1) (b - 1)
      (r.1.swapIfInBounds r.2.2 a, r.2.2, already) := by
  have stop : b - 1 + 1 = b := by omega
  rw [split, exchange]
  simp only [stop]
  split
  · exact ⟨true, rfl⟩
  · exact ⟨false, rfl⟩

theorem divided_split (o : IsOrder less) (first : a ≤ pivot) (last : pivot < b)
    (inside : b ≤ xs.size) :
    Divided less a (split less xs a b pivot).2.1 b xs (split less xs a b pivot).1 := by
  obtain ⟨already, eq⟩ := split_eq_exchange less xs pivot (Nat.lt_of_le_of_lt first last)
  rw [eq]
  have chosen : Rearranged a b xs (xs.swapIfInBounds a pivot) := .one xs (by omega) (by omega)
  generalize xs.swapIfInBounds a pivot = ys at chosen
  have size := chosen.size_eq
  have item : ys[a]? ≠ none := by
    simpa using (by omega : a < ys.size)
  generalize held : ys[a]? = x at item
  have split : Exchanged (lessItem less · x) (a + 1) (b - 1) ys (exchange
      (fun xs i => lessAt less xs i a) (fun xs j => !lessAt less xs j a) (b - a + 1) ys (a + 1)
      (b - 1)) :=
    exchanged (fun ys here k => by rw [lessAt_eq, here]) (fun ys here k => by rw [lessAt_eq, here])
      _ held (Nat.lt_succ_self a) (by omega) (by omega) (by omega)
  generalize exchange (fun xs i => lessAt less xs i a) (fun xs j => !lessAt less xs j a)
    (b - a + 1) ys (a + 1) (b - 1) = r at split
  obtain ⟨zs, i, mid⟩ := r
  obtain ⟨moved, meet, low, high, below, above⟩ := split
  simp only at moved meet low high below above ⊢
  have inner : Rearranged a b ys zs := moved.widen (by omega) (by omega)
  have size' := inner.size_eq
  have back : Rearranged a b zs (zs.swapIfInBounds mid a) := .one zs (by omega) (by omega)
  have start : zs[a]? = x := (moved.get_outside (by omega)).trans held
  have center : (zs.swapIfInBounds mid a)[mid]? = x :=
    (get_swap_left (by omega) (by omega)).trans start
  have smaller (k : Nat) (hk : a ≤ k) (before : k < mid) :
      lessItem less (zs.swapIfInBounds mid a)[k]? x = true := by
    rcases Nat.eq_or_lt_of_le hk with rfl | later
    · rw [get_swap_right (by omega) (by omega)]
      exact below mid (by omega) (by omega)
    · rw [get_swap_of_ne zs (by omega) (by omega)]
      exact below k later (by omega)
  have greater (k : Nat) (behind : mid < k) (hk : k < b) :
      lessItem less (zs.swapIfInBounds mid a)[k]? x = false := by
    rw [get_swap_of_ne zs (by omega) (by omega)]
    exact above k behind (by omega)
  have not_greater (k : Nat) (hk : a ≤ k) (upto : k < mid + 1) :
      lessItem less x (zs.swapIfInBounds mid a)[k]? = false := by
    rcases Nat.eq_or_lt_of_le (Nat.le_of_lt_succ upto) with rfl | before
    · rw [center]
      exact o.irrefl_item x
    · exact o.asymm_item (smaller k hk before)
  have not_less (k : Nat) (from_mid : mid ≤ k) (hk : k < b) :
      lessItem less (zs.swapIfInBounds mid a)[k]? x = false := by
    rcases Nat.eq_or_lt_of_le from_mid with rfl | behind
    · rw [center]
      exact o.irrefl_item x
    · exact greater k behind hk
  exact ⟨chosen.trans (inner.trans back), by omega, by omega,
    precedes_of_item o item (fun k hk before => not_greater k hk (by omega)) not_less,
    precedes_of_item o item not_greater fun k behind hk => not_less k (by omega) hk⟩

/-! ## Splitting off what is level with the pivot -/

/-- If no item of the range is less than the pivot, then the first part of the split is in order, and
nothing behind it is less than it. -/
theorem sorted_of_splitEqual (o : IsOrder less) (first : a ≤ pivot) (last : pivot < b)
    (inside : b ≤ xs.size) (least : ∀ k, a ≤ k → k < b → lessAt less xs k pivot = false) :
    let r := splitEqual less xs a b pivot
    Rearranged a b xs r.1 ∧ a < r.2 ∧ r.2 ≤ b ∧ SortedOn less r.1 a r.2 ∧
      Precedes less r.1 a r.2 b := by
  rw [splitEqual]
  have chosen : Rearranged a b xs (xs.swapIfInBounds a pivot) := .one xs (by omega) (by omega)
  have held : (xs.swapIfInBounds a pivot)[a]? = xs[pivot]? := get_swap_left (by omega) (by omega)
  have item : xs[pivot]? ≠ none := by
    simpa using (by omega : pivot < xs.size)
  generalize xs.swapIfInBounds a pivot = ys at chosen held
  have size := chosen.size_eq
  have split : Exchanged (fun y => !lessItem less xs[pivot]? y) (a + 1) (b - 1) ys (exchange
      (fun xs i => !lessAt less xs a i) (fun xs j => lessAt less xs a j) (b - a) ys (a + 1)
      (b - 1)) :=
    exchanged (fun ys here k => by rw [lessAt_eq, here])
      (fun ys here k => by rw [lessAt_eq, here, Bool.not_not])
      _ held (Nat.lt_succ_self a) (by omega) (by omega) (by omega)
  simp only
  generalize exchange (fun xs i => !lessAt less xs a i) (fun xs j => lessAt less xs a j)
    (b - a) ys (a + 1) (b - 1) = r at split
  obtain ⟨zs, mid, j⟩ := r
  obtain ⟨moved, meet, low, high, below, above⟩ := split
  simp only [Bool.not_eq_true', Bool.not_eq_false'] at moved meet low high below above ⊢
  have whole : Rearranged a b xs zs := chosen.trans (moved.widen (by omega) (by omega))
  have start : zs[a]? = xs[pivot]? := (moved.get_outside (by omega)).trans held
  have level (k : Nat) (hk : a ≤ k) (before : k < mid) :
      lessItem less xs[pivot]? zs[k]? = false := by
    rcases Nat.eq_or_lt_of_le hk with rfl | later
    · rw [start, ← lessAt_eq]
      exact o.irrefl_at xs pivot
    · exact below k later before
  have not_less (k : Nat) (hk : a ≤ k) (before : k < b) :
      lessItem less zs[k]? xs[pivot]? = false := by
    refine whole.forall_items (p := fun y => lessItem less y xs[pivot]? = false) (Nat.le_refl a)
      (Nat.le_refl b) (fun l low high => ?_) k hk before
    rw [← lessAt_eq]
    exact least l low high
  refine ⟨whole, by omega, by omega, fun k l hk hkl hl => ?_,
    precedes_of_item o item level fun l hl high' => not_less l (by omega) high'⟩
  rw [lessAt_eq]
  exact o.trans_item item (level k hk (by omega)) (not_less l (by omega) (by omega))

end LittleLisp.Sorting
