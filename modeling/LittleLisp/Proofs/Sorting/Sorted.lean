import LittleLisp.Proofs.Sorting.Heap
import LittleLisp.Proofs.Sorting.Insertion
import LittleLisp.Proofs.Sorting.Partition

/-!
# The sort sorts

Whatever the patterns are that the sort finds in a range, what it does before it splits the range
only rearranges it. A split makes shorter ranges, of which each has nothing greater before it, and
so the sort of a range sorts it (`sorts_sortRange`): `sort` gives a permutation of a list in which no
item is less than one before it (`sort_perm`, `pairwise_sort`).

In which order items come that are level, the steps of the sort decide.
-/

namespace LittleLisp.Sorting

variable {α : Type} {less : α → α → Bool} {xs : Array α} {a b : Nat}

/-! ## What is done before a split -/

section Median

variable {p : Nat → Prop} {i j k : Nat}

theorem orderTwo_keeps (less : α → α → Bool) (xs : Array α) (hi : p i) (hj : p j) :
    p (orderTwo less xs i j).1 ∧ p (orderTwo less xs i j).2.1 := by
  rw [orderTwo]
  split
  · exact ⟨hj, hi⟩
  · exact ⟨hi, hj⟩

theorem median_keeps (less : α → α → Bool) (xs : Array α) (hi : p i) (hj : p j) (hk : p k) :
    p (median less xs i j k).1 := by
  obtain ⟨least, other⟩ := orderTwo_keeps less xs hi hj
  obtain ⟨middle, -⟩ := orderTwo_keeps less xs other hk
  exact (orderTwo_keeps less xs least middle).2

end Median

/-- The pivot of a long range is in the range. -/
theorem choosePivot_mem (less : α → α → Bool) (xs : Array α) (long : a + 12 < b) :
    a ≤ (choosePivot less xs a b).1 ∧ (choosePivot less xs a b).1 < b := by
  have quarter := Nat.div_mul_le_self (b - a) 4
  have quarter_pos : 3 ≤ (b - a) / 4 := (Nat.le_div_iff_mul_le (by omega)).2 (by omega)
  rw [choosePivot]
  generalize (b - a) / 4 = q at quarter quarter_pos
  simp only
  split
  · exact median_keeps (p := fun n => a ≤ n ∧ n < b) less xs (by omega) (by omega) (by omega)
  · have near (i : Nat) (low : a < i) (high : i + 1 < b) :
        a ≤ (medianNear less xs i).1 ∧ (medianNear less xs i).1 < b :=
      median_keeps (p := fun n => a ≤ n ∧ n < b) less xs (by omega) (by omega) (by omega)
    exact median_keeps (p := fun n => a ≤ n ∧ n < b) less xs (near _ (by omega) (by omega))
      (near _ (by omega) (by omega)) (near _ (by omega) (by omega))

theorem rearranged_foldl {ι : Type} {f : Array α → ι → Array α} {l : List ι}
    (each : ∀ i ∈ l, ∀ ys, Rearranged a b ys (f ys i)) : Rearranged a b xs (l.foldl f xs) := by
  induction l generalizing xs with
  | nil => exact .refl
  | cons i l ih =>
    obtain ⟨first, others⟩ := List.forall_mem_cons.1 each
    exact (first xs).trans (ih others)

theorem rearranged_reverseRange (xs : Array α) (a b : Nat) :
    Rearranged a b xs (reverseRange xs a b) := by
  refine rearranged_foldl fun i hi ys => ?_
  have := List.mem_range.1 hi
  exact .one ys (by omega) (by omega)

theorem two_pow_binaryLength_le {n : Nat} (pos : 0 < n) : Nat.pow 2 (binaryLength n) ≤ 2 * n := by
  rw [binaryLength, if_neg (by omega), Nat.pow_eq, Nat.pow_succ, Nat.mul_comm]
  exact Nat.mul_le_mul_left 2 (Nat.log2_self_le (by omega))

theorem rearranged_scatter (xs : Array α) (long : a + 12 < b) :
    Rearranged a b xs (scatter xs a b) := by
  have bound := two_pow_binaryLength_le (by omega : 0 < b - a)
  have quarter := Nat.div_mul_le_self (b - a) 4
  have place (n : UInt64) : (if b - a ≤ n.toNat % Nat.pow 2 (binaryLength (b - a)) then
      n.toNat % Nat.pow 2 (binaryLength (b - a)) - (b - a)
      else n.toNat % Nat.pow 2 (binaryLength (b - a))) < b - a := by
    have below : n.toNat % Nat.pow 2 (binaryLength (b - a)) < 2 * (b - a) :=
      Nat.lt_of_lt_of_le (Nat.mod_lt _ (Nat.two_pow_pos _)) bound
    split <;> omega
  rw [scatter]
  exact .swap (by omega) ⟨Nat.le_add_right _ _, Nat.add_lt_of_lt_sub' (place _)⟩
    (.swap (by omega) ⟨Nat.le_add_right _ _, Nat.add_lt_of_lt_sub' (place _)⟩
      (.one xs (by omega) ⟨Nat.le_add_right _ _, Nat.add_lt_of_lt_sub' (place _)⟩))

/-- What is done with a long range before it is split: the array and the limit then, the pivot, and
whether the range is sorted already. -/
def prepare (less : α → α → Bool) (xs : Array α) (t : Task) : Array α × Nat × Nat × Bool :=
  let (xs, limit) := if t.balanced then (xs, t.limit) else (scatter xs t.a t.b, t.limit - 1)
  let (pivot, hint) := choosePivot less xs t.a t.b
  let (xs, pivot) :=
    if hint = .decreasing then (reverseRange xs t.a t.b, t.b - 1 - (pivot - t.a))
    else (xs, pivot)
  let (xs, sorted) :=
    if t.balanced && t.settled && hint != .unknown then
      nearlySort less t.a t.b 5 xs (t.a + 1)
    else (xs, false)
  (xs, limit, pivot, sorted)

/-- The sort of a range: short ones by insertion, on a heap if the limit is reached, and else the
two parts of the range that has been prepared. -/
theorem sortRange_succ (less : α → α → Bool) (steps : Nat) (xs : Array α) (t : Task) :
    sortRange less (steps + 1) xs t =
      if t.b - t.a ≤ 12 then insertionSort less xs t.a t.b
      else if t.limit = 0 then heapSort less xs t.a t.b
      else
        let (xs, limit, pivot, sorted) := prepare less xs t
        if sorted then xs
        else if 0 < t.a ∧ ¬ lessAt less xs (t.a - 1) pivot then
          let (xs, mid) := splitEqual less xs t.a t.b pivot
          sortRange less steps xs { t with a := mid, limit }
        else
          let (xs, mid, settled) := split less xs t.a t.b pivot
          if mid - t.a < t.b - mid then
            sortRange less steps (sortRange less steps xs { a := t.a, b := mid, limit })
              { a := mid + 1, b := t.b, limit, balanced := decide ((t.b - t.a) / 8 ≤ mid - t.a),
                settled }
          else
            sortRange less steps (sortRange less steps xs { a := mid + 1, b := t.b, limit })
              { a := t.a, b := mid, limit, balanced := decide ((t.b - t.a) / 8 ≤ t.b - mid),
                settled } :=
  rfl

/-- A prepared range is rearranged, its pivot is in it, and it is sorted if that is said. -/
structure Prepared (less : α → α → Bool) (a b : Nat) (xs : Array α)
    (r : Array α × Nat × Nat × Bool) : Prop where
  rearranged : Rearranged a b xs r.1
  low : a ≤ r.2.2.1
  high : r.2.2.1 < b
  sorted : r.2.2.2 = true → SortedOn less r.1 a b

/-- Turning a range around takes the pivot along. -/
theorem prepared_turn (less : α → α → Bool) (xs : Array α) {pivot : Nat} (low : a ≤ pivot)
    (high : pivot < b) (hint : Hint) (limit : Nat) :
    let r := if hint = .decreasing then (reverseRange xs a b, b - 1 - (pivot - a)) else (xs, pivot)
    Prepared less a b xs (r.1, limit, r.2, false) := by
  intro r
  by_cases turns : hint = .decreasing
  · have turned : r = (reverseRange xs a b, b - 1 - (pivot - a)) := if_pos turns
    rw [turned]
    refine ⟨rearranged_reverseRange xs a b, ?_, ?_, fun h => by cases h⟩
    · simp only
      omega
    · simp only
      omega
  · have kept : r = (xs, pivot) := if_neg turns
    rw [kept]
    exact ⟨.refl, low, high, fun h => by cases h⟩

theorem prepared (o : IsOrder less) (t : Task) (long : t.a + 12 < t.b) (inside : t.b ≤ xs.size)
    (before : Precedes less xs 0 t.a t.b) : Prepared less t.a t.b xs (prepare less xs t) := by
  obtain ⟨a, b, limit, balanced, settled⟩ := t
  simp only [prepare] at long inside before ⊢
  have scattered : Rearranged a b xs
      (if balanced = true then (xs, limit) else (scatter xs a b, limit - 1)).1 := by
    split
    · exact .refl
    · exact rearranged_scatter xs long
  generalize (if balanced = true then (xs, limit) else (scatter xs a b, limit - 1)) = s
    at scattered ⊢
  obtain ⟨chosen, bound⟩ := choosePivot_mem less s.1 long
  generalize choosePivot less s.1 a b = c at chosen bound ⊢
  have turned := prepared_turn less s.1 chosen bound c.2 0
  simp only at turned
  generalize (if c.2 = .decreasing then (reverseRange s.1 a b, b - 1 - (c.1 - a))
    else (s.1, c.1)) = r at turned ⊢
  have moved : Rearranged a b xs r.1 := scattered.trans turned.rearranged
  split
  · obtain ⟨shifted, sorted⟩ := sorted_of_nearlySort o 5 (Nat.lt_succ_self a) (by omega)
      (by rwa [moved.size_eq]) (before.rearrange moved (by omega))
      (sortedOn_of_short less r.1 (Nat.le_refl _))
    exact ⟨moved.trans shifted, turned.low, turned.high, sorted⟩
  · exact ⟨moved, turned.low, turned.high, fun h => by cases h⟩

/-! ## Sorting a range -/

/-- Two parts of a range that are sorted one after the other, with the item between them in its
place. -/
theorem Divided.sorts {mid : Nat} {ys zs ws : Array α} (h : Divided less a mid b xs ys)
    (first : Rearranged a mid ys zs ∧ Rearranged (mid + 1) b zs ws ∨
      Rearranged (mid + 1) b ys zs ∧ Rearranged a mid zs ws)
    (below : SortedOn less ws a mid) (above : SortedOn less ws (mid + 1) b) :
    Sorts less a b xs ws := by
  have low := h.low
  have high := h.high
  have around :
      Rearranged a b ys ws ∧ Precedes less ws a mid b ∧ Precedes less ws a (mid + 1) b := by
    rcases first with ⟨left, right⟩ | ⟨right, left⟩
    · exact ⟨(left.widen (Nat.le_refl _) (by omega)).trans (right.widen (by omega) (Nat.le_refl _)),
        (h.before.rearrange left (by omega)).rearrange right (by omega),
        (h.behind.rearrange left (by omega)).rearrange right (by omega)⟩
    · exact ⟨(right.widen (by omega) (Nat.le_refl _)).trans (left.widen (Nat.le_refl _) (by omega)),
        (h.before.rearrange right (by omega)).rearrange left (by omega),
        (h.behind.rearrange right (by omega)).rearrange left (by omega)⟩
  obtain ⟨moved, before, behind⟩ := around
  refine ⟨h.rearranged.trans moved, ?_⟩
  have upTo : SortedOn less ws a (mid + 1) :=
    below.append (sortedOn_of_short less ws (Nat.le_refl _)) (before.narrow (Nat.le_refl _) high)
  exact upTo.append above behind

/-- **A range is sorted.** What stands before the range must not be greater than its items. -/
theorem sorts_sortRange (o : IsOrder less) (steps limit : Nat) (balanced settled : Bool)
    (enough : b - a < steps) (le : a ≤ b) (inside : b ≤ xs.size)
    (before : Precedes less xs 0 a b) :
    Sorts less a b xs (sortRange less steps xs ⟨a, b, limit, balanced, settled⟩) := by
  induction steps generalizing xs a b limit balanced settled with
  | zero => omega
  | succ steps ih =>
    rw [sortRange_succ]
    simp only
    split
    · exact sorts_insertionSort o inside
    split
    · exact sorts_heapSort o le inside
    have ready := prepared o ⟨a, b, limit, balanced, settled⟩ (by simp only; omega) inside before
    generalize prepare less xs ⟨a, b, limit, balanced, settled⟩ = r at ready
    obtain ⟨ys, limit, pivot, sorted⟩ := r
    obtain ⟨moved, low, high, done⟩ := ready
    simp only at moved low high done ⊢
    have inside' : b ≤ ys.size := by rwa [moved.size_eq]
    have before' := before.rearrange moved (by omega)
    split
    · next all => exact ⟨moved, done all⟩
    split
    · next level =>
      -- The item before the range is not less than the pivot, so no item of the range is less.
      have least (k : Nat) (hk : a ≤ k) (bound : k < b) : lessAt less ys k pivot = false :=
        o.trans_at (by omega) (Bool.eq_false_iff.2 level.2)
          (before' (a - 1) k (Nat.zero_le _) (by omega) hk bound)
      obtain ⟨parted, after, within, sorted, between⟩ :=
        sorted_of_splitEqual o low high inside' least
      generalize splitEqual less ys a b pivot = s at parted after within sorted between ⊢
      obtain ⟨zs, mid⟩ := s
      simp only at parted after within sorted between ⊢
      obtain ⟨rest, sorted'⟩ := ih limit balanced settled (by omega) within
        (by rw [parted.size_eq]; omega) ((before'.rearrange parted (by omega)).extend between
          (Nat.le_of_lt after))
      exact ⟨(moved.trans parted).trans (rest.widen (by omega) (Nat.le_refl _)),
        (sorted.keep rest (by omega)).append sorted' (between.rearrange rest (by omega))⟩
    · obtain ⟨parted, first, last, ahead, behind⟩ := divided_split o low high inside'
      generalize split less ys a b pivot = s at parted first last ahead behind ⊢
      obtain ⟨zs, mid, settled⟩ := s
      simp only at parted first last ahead behind ⊢
      have size' := parted.size_eq
      have divided : Divided less a mid b xs zs := ⟨moved.trans parted, first, last, ahead, behind⟩
      have before'' := before'.rearrange parted (by omega)
      have ahead' := before''.narrow (Nat.le_refl 0) (Nat.le_of_lt last)
      have behind' := before''.extend behind (by omega)
      split
      · obtain ⟨left, below⟩ := ih limit true true (by omega) first (by omega) ahead'
        have size'' := left.size_eq
        obtain ⟨right, above⟩ := ih limit _ settled (by omega) last (by omega)
          (behind'.rearrange left (by omega))
        exact divided.sorts (.inl ⟨left, right⟩) (below.keep right (by omega)) above
      · obtain ⟨right, above⟩ := ih limit true true (by omega) last (by omega) behind'
        have size'' := right.size_eq
        obtain ⟨left, below⟩ := ih limit _ settled (by omega) first (by omega)
          (ahead'.rearrange right (by omega))
        exact divided.sorts (.inr ⟨right, left⟩) below (above.keep left (by omega))

/-! ## Sorting a list -/

theorem sorts_sort (o : IsOrder less) (l : List α) :
    ∃ ys : Array α, sort less l = ys.toList ∧ Sorts less 0 l.length l.toArray ys :=
  ⟨_, rfl, sorts_sortRange o _ _ true true (Nat.lt_succ_self _) (Nat.zero_le _) (Nat.le_refl _)
    fun i _ _ hi => absurd hi (Nat.not_lt_zero i)⟩

/-- Nothing is lost and nothing added. -/
theorem sort_perm (o : IsOrder less) (l : List α) : (sort less l).Perm l := by
  obtain ⟨ys, eq, sorts⟩ := sorts_sort o l
  rw [eq]
  exact sorts.rearranged.perm

/-- No item of a sorted list is less than one before it. -/
theorem pairwise_sort (o : IsOrder less) (l : List α) :
    (sort less l).Pairwise fun x y => less y x = false := by
  obtain ⟨ys, eq, sorts⟩ := sorts_sort o l
  have size : ys.size = l.length := sorts.rearranged.size_eq
  rw [eq, List.pairwise_iff_getElem]
  intro i j hi hj hij
  have order := sorts.sorted i j (Nat.zero_le _) hij (by rwa [← size])
  rwa [lessAt_eq, Array.getElem?_eq_getElem hi, Array.getElem?_eq_getElem hj] at order

end LittleLisp.Sorting
