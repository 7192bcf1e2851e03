import LittleLisp.Proofs.Sorting.Rearrangement

/-!
# Sorting on a heap

In a heap no item is less than its children, so that none is less than the one at the top. An item
that sinks repairs the only place where that may fail (`HeapBut`). The sort takes the top of the heap
away and puts it before what it has taken already (`Emptied`).

The heap stands from the index `first` on; its places are counted from there.
-/

namespace LittleLisp.Sorting

variable {α : Type} {less : α → α → Bool} {xs : Array α} {first size lo hole : Nat}

/-- A place of the heap is right below another one. -/
def IsChild (c p : Nat) : Prop :=
  c = 2 * p + 1 ∨ c = 2 * p + 2

/-- From the place `lo` on, no item of the heap is less than its children. -/
def HeapFrom (less : α → α → Bool) (xs : Array α) (first size lo : Nat) : Prop :=
  ∀ p c, lo ≤ p → IsChild c p → c < size → lessAt less xs (first + p) (first + c) = false

/-- A heap from `lo` on, but for the item at `hole`, which may be less than its children; these are
not greater than the item above it. -/
structure HeapBut (less : α → α → Bool) (xs : Array α) (first size lo hole : Nat) : Prop where
  pairs : ∀ p c, lo ≤ p → p ≠ hole → IsChild c p → c < size →
    lessAt less xs (first + p) (first + c) = false
  above : ∀ p c, lo ≤ p → IsChild hole p → IsChild c hole → c < size →
    lessAt less xs (first + p) (first + c) = false

/-! ## Sinking -/

/-- The child that an item changes places with is one that is not less than the other. -/
theorem greatest_child (o : IsOrder less) (xs : Array α) (first : Nat)
    (has : 2 * hole + 1 < size) :
    let child := if 2 * hole + 1 + 1 < size ∧
        lessAt less xs (first + (2 * hole + 1)) (first + (2 * hole + 1) + 1)
      then 2 * hole + 1 + 1 else 2 * hole + 1
    IsChild child hole ∧ child < size ∧
      ∀ c, IsChild c hole → c < size → lessAt less xs (first + child) (first + c) = false := by
  intro child
  by_cases right : 2 * hole + 1 + 1 < size ∧
      lessAt less xs (first + (2 * hole + 1)) (first + (2 * hole + 1) + 1)
  · have same : child = 2 * hole + 1 + 1 := if_pos right
    rw [same]
    refine ⟨.inr rfl, right.1, fun c hc _ => ?_⟩
    rcases hc with rfl | rfl
    · exact o.asymm_at right.2
    · exact o.irrefl_at xs _
  · have same : child = 2 * hole + 1 := if_neg right
    rw [same]
    refine ⟨.inl rfl, has, fun c hc inside => ?_⟩
    rcases hc with rfl | rfl
    · exact o.irrefl_at xs _
    · exact Bool.eq_false_iff.2 fun less_right => right ⟨inside, less_right⟩

/-- The item at the hole changes places with its greatest child. -/
theorem HeapBut.sink (o : IsOrder less) (h : HeapBut less xs first size lo hole)
    (inside : first + size ≤ xs.size) (low : lo ≤ hole) {child : Nat}
    (is_child : IsChild child hole) (bound : child < size)
    (greatest : ∀ c, IsChild c hole → c < size →
      lessAt less xs (first + child) (first + c) = false)
    (sinks : lessAt less xs (first + hole) (first + child) = true) :
    HeapBut less (xs.swapIfInBounds (first + hole) (first + child)) first size lo child := by
  have down : hole < child := by
    rcases is_child with rfl | rfl <;> omega
  have up : (xs.swapIfInBounds (first + hole) (first + child))[first + hole]? =
      xs[first + child]? := get_swap_left (by omega) (by omega)
  have fallen : (xs.swapIfInBounds (first + hole) (first + child))[first + child]? =
      xs[first + hole]? := get_swap_right (by omega) (by omega)
  have stays {k : Nat} (not_hole : k ≠ hole) (not_child : k ≠ child) :
      (xs.swapIfInBounds (first + hole) (first + child))[first + k]? = xs[first + k]? :=
    get_swap_of_ne xs (by omega) (by omega)
  constructor
  · intro p c hp not_child hc inner
    by_cases top : p = hole
    · subst top
      by_cases own : c = child
      · subst own
        rw [lessAt_congr up fallen]
        exact o.asymm_at sinks
      · have below : c ≠ p := by rcases hc with rfl | rfl <;> omega
        rw [lessAt_congr up (stays below own)]
        exact greatest c hc inner
    · have other : c ≠ child := by
        rintro rfl
        rcases hc with hc | hc <;> rcases is_child with same | same <;> omega
      by_cases under : c = hole
      · subst under
        rw [lessAt_congr (stays top not_child) up]
        exact h.above p child hp hc is_child bound
      · rw [lessAt_congr (stays top not_child) (stays under other)]
        exact h.pairs p c hp top hc inner
  · intro p c hp above hc inner
    obtain rfl : p = hole := by
      rcases above with above | above <;> rcases is_child with same | same <;> omega
    have below : child < c := by rcases hc with rfl | rfl <;> omega
    rw [lessAt_congr up (stays (by omega) (by omega))]
    exact h.pairs child c (by omega) (by omega) hc inner

theorem rearranged_siftDown (steps : Nat) :
    Rearranged first (first + size) xs (siftDown less first size steps xs hole) := by
  induction steps generalizing xs hole with
  | zero => exact .refl
  | succ steps ih =>
    rw [siftDown]
    simp only
    split
    · exact .refl
    · next has =>
      generalize same : (if 2 * hole + 1 + 1 < size ∧
          lessAt less xs (first + (2 * hole + 1)) (first + (2 * hole + 1) + 1)
        then 2 * hole + 1 + 1 else 2 * hole + 1) = child
      have bound : child < size := by
        rw [← same]
        split <;> omega
      split
      · have swap : Rearranged first (first + size) xs
            (xs.swapIfInBounds (first + hole) (first + child)) :=
          .one xs (by omega) (by omega)
        exact swap.trans ih
      · exact .refl

/-- An item that has sunk far enough leaves a heap. -/
theorem heapFrom_siftDown (o : IsOrder less) (steps : Nat) (enough : size ≤ steps + hole)
    (inside : first + size ≤ xs.size) (low : lo ≤ hole)
    (h : HeapBut less xs first size lo hole) :
    HeapFrom less (siftDown less first size steps xs hole) first size lo := by
  induction steps generalizing xs hole with
  | zero =>
    refine fun p c hp hc inner => h.pairs p c hp ?_ hc inner
    rcases hc with rfl | rfl <;> omega
  | succ steps ih =>
    rw [siftDown]
    simp only
    split
    · next none =>
      refine fun p c hp hc inner => h.pairs p c hp ?_ hc inner
      rcases hc with rfl | rfl <;> omega
    · next has =>
      obtain ⟨is_child, bound, greatest⟩ :=
        greatest_child o xs first (Nat.lt_of_not_le has)
      generalize (if 2 * hole + 1 + 1 < size ∧
          lessAt less xs (first + (2 * hole + 1)) (first + (2 * hole + 1) + 1)
        then 2 * hole + 1 + 1 else 2 * hole + 1) = child at is_child bound greatest
      have down : hole < child := by
        rcases is_child with rfl | rfl <;> omega
      split
      · next sinks =>
        exact ih (by omega) (by rwa [Array.size_swapIfInBounds]) (by omega)
          (h.sink o inside low is_child bound greatest sinks)
      · next rests =>
        intro p c hp hc inner
        by_cases here : p = hole
        · subst here
          exact o.trans_at (by omega) (greatest c hc inner) (Bool.eq_false_iff.2 rests)
        · exact h.pairs p c hp here hc inner

/-! ## Building the heap -/

theorem HeapFrom.heapBut (h : HeapFrom less xs first size (hole + 1)) :
    HeapBut less xs first size hole hole where
  pairs := fun p c hp other => h p c (by omega)
  above := by
    intro p c hp above
    rcases above with above | above <;> omega

/-- The places of a heap get in order from the last one to the first one. -/
theorem heapFrom_build (o : IsOrder less) (n : Nat) (inside : first + size ≤ xs.size)
    (h : HeapFrom less xs first size n) :
    let ys := (List.range n).reverse.foldl (fun xs i => siftDown less first size size xs i) xs
    Rearranged first (first + size) xs ys ∧ HeapFrom less ys first size 0 := by
  induction n generalizing xs with
  | zero => exact ⟨.refl, h⟩
  | succ n ih =>
    rw [List.range_succ, List.reverse_append, List.reverse_singleton, List.singleton_append,
      List.foldl_cons]
    have sunk : Rearranged first (first + size) xs (siftDown less first size size xs n) :=
      rearranged_siftDown size
    obtain ⟨rest, heap⟩ := ih (by rw [sunk.size_eq]; exact inside)
      (heapFrom_siftDown o size (by omega) inside (Nat.le_refl n) h.heapBut)
    exact ⟨sunk.trans rest, heap⟩

/-- No item of a heap is greater than the one at its top. -/
theorem HeapFrom.top (o : IsOrder less) (h : HeapFrom less xs first size 0)
    (inside : first + size ≤ xs.size) {k : Nat} (hk : k < size) :
    lessAt less xs first (first + k) = false := by
  induction k using Nat.strongRecOn with
  | ind k ih =>
    cases k with
    | zero => exact o.irrefl_at xs first
    | succ k =>
      -- The parent of the place `k + 1` is at `k / 2`.
      have parent : IsChild (k + 1) (k / 2) := by
        have := Nat.div_add_mod k 2
        have := Nat.mod_lt k (by omega : 0 < 2)
        unfold IsChild
        omega
      exact o.trans_at (by omega) (h (k / 2) (k + 1) (Nat.zero_le _) parent hk)
        (ih (k / 2) (by omega) (by omega))

/-! ## Taking the heap down -/

/-- All but `n` items of the heap have been taken away; they stand behind it in their order. -/
structure Emptied (less : α → α → Bool) (xs : Array α) (first n size : Nat) : Prop where
  heap : HeapFrom less xs first n 0
  taken : SortedOn less xs (first + n) (first + size)
  between : Precedes less xs first (first + n) (first + size)

/-- The top of the heap changes places with its last item, which then sinks. -/
theorem Emptied.next (o : IsOrder less) {n : Nat} (h : Emptied less xs first (n + 1) size)
    (bound : n + 1 ≤ size) (inside : first + size ≤ xs.size) :
    let ys := siftDown less first n size (xs.swapIfInBounds first (first + n)) 0
    Rearranged first (first + size) xs ys ∧ Emptied less ys first n size := by
  intro ys
  have last : (xs.swapIfInBounds first (first + n))[first + n]? = xs[first]? :=
    get_swap_right (by omega) (by omega)
  have swap : Rearranged first (first + (n + 1)) xs (xs.swapIfInBounds first (first + n)) :=
    .one xs (by omega) (by omega)
  have sunk : Rearranged first (first + n) (xs.swapIfInBounds first (first + n)) ys :=
    rearranged_siftDown size
  have whole : Rearranged first (first + (n + 1)) xs ys :=
    swap.trans (sunk.widen (Nat.le_refl _) (by omega))
  -- The item that was at the top stands right behind the heap now.
  have top : ys[first + n]? = xs[first]? := (sunk.get_outside (by omega)).trans last
  have source (k : Nat) (low : first ≤ k) (high : k < first + n) :
      lessItem less xs[first]? ys[k]? = false := by
    have least (l : Nat) (low : first ≤ l) (high : l < first + (n + 1)) :
        lessItem less xs[first]? xs[l]? = false := by
      obtain ⟨d, rfl⟩ := Nat.exists_eq_add_of_le low
      rw [← lessAt_eq]
      exact h.heap.top o (by omega) (by omega)
    exact whole.forall_items (p := fun x => lessItem less xs[first]? x = false) (Nat.le_refl _)
      (Nat.le_refl _) least k low (by omega)
  refine ⟨whole.widen (Nat.le_refl _) (by omega), ⟨?_, ?_, ?_⟩⟩
  · refine heapFrom_siftDown o size (by omega) (by rw [swap.size_eq]; omega) (Nat.le_refl 0)
      ⟨fun p c _ not_top hc inner => ?_, fun p c _ above => ?_⟩
    · have below : c ≠ 0 := by rcases hc with rfl | rfl <;> omega
      have before : p < c := by rcases hc with rfl | rfl <;> omega
      rw [lessAt_congr (get_swap_of_ne xs (by omega) (by omega))
        (get_swap_of_ne xs (by omega) (by omega))]
      exact h.heap p c (Nat.zero_le _) hc (by omega)
    · rcases above with above | above <;> omega
  · intro i j hi hij hj
    have stays : ys[j]? = xs[j]? := whole.get_outside (by omega)
    by_cases here : i = first + n
    · subst here
      rw [lessAt_congr stays top]
      exact h.between first j (Nat.le_refl _) (by omega) (by omega) hj
    · rw [lessAt_congr stays (whole.get_outside (by omega))]
      exact h.taken i j (by omega) hij hj
  · intro i j hi him hmj hj
    by_cases here : j = first + n
    · subst here
      rw [lessAt_eq, top]
      exact source i hi him
    · exact h.between.rearrange whole (by omega) i j hi (by omega) (by omega) hj

theorem sorts_takeDown (o : IsOrder less) (n : Nat) (bound : n ≤ size)
    (inside : first + size ≤ xs.size) (h : Emptied less xs first n size) :
    Sorts less first (first + size) xs ((List.range n).reverse.foldl
      (fun xs i => siftDown less first i size (xs.swapIfInBounds first (first + i)) 0) xs) := by
  induction n generalizing xs with
  | zero => exact ⟨.refl, h.taken⟩
  | succ n ih =>
    rw [List.range_succ, List.reverse_append, List.reverse_singleton, List.singleton_append,
      List.foldl_cons]
    obtain ⟨step, emptied⟩ := h.next o bound inside
    obtain ⟨rest, sorted⟩ := ih (by omega) (by rw [step.size_eq]; exact inside) emptied
    exact ⟨step.trans rest, sorted⟩

theorem sorts_heapSort (o : IsOrder less) {a b : Nat} (le : a ≤ b) (inside : b ≤ xs.size) :
    Sorts less a b xs (heapSort less xs a b) := by
  obtain ⟨size, rfl⟩ := Nat.exists_eq_add_of_le le
  rw [heapSort, Nat.add_sub_cancel_left]
  -- The places from the middle on have no children.
  have leaves : HeapFrom less xs a size ((size - 1) / 2 + 1) := by
    intro p c hp hc inner
    have := Nat.div_add_mod (size - 1) 2
    have := Nat.mod_lt (size - 1) (by omega : 0 < 2)
    rcases hc with rfl | rfl <;> omega
  obtain ⟨build, heap⟩ := heapFrom_build o _ inside leaves
  obtain ⟨takeDown, sorted⟩ := sorts_takeDown o size (Nat.le_refl _)
    (by rw [build.size_eq]; exact inside)
    ⟨heap, sortedOn_of_short less _ (by omega), fun i j _ _ hi hj => by omega⟩
  exact ⟨build.trans takeDown, sorted⟩

end LittleLisp.Sorting
