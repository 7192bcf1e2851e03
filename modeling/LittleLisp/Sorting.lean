/-!
# Sorting by patterns

A quicksort in place that looks for patterns. Short ranges are sorted by insertion. In longer ones
a pivot is taken from the middle of a sample, and the sample also hints at a range that runs up or
down already. A range with many equal items is split into the equal and the greater ones. After an
unbalanced split some items are scattered, and after too many of them the range is sorted on a heap.

Items of which none is less than the other end up in an order that these steps decide, so the steps
are part of what `sort` promises. A range is given by its first index and the index behind its last.
-/

namespace LittleLisp.Sorting

variable {α : Type}

/-- The item at one index is less than that at another. -/
def lessAt (less : α → α → Bool) (xs : Array α) (i j : Nat) : Bool :=
  match xs[i]?, xs[j]? with
  | some a, some b => less a b
  | _, _ => false

/-! ## Insertion -/

/-- Moves the item at an index down while it is less than its neighbour, at most to `lo`. -/
def moveDown (less : α → α → Bool) (lo : Nat) (xs : Array α) : Nat → Array α
  | 0 => xs
  | i + 1 =>
    if lo < i + 1 ∧ lessAt less xs (i + 1) i then
      moveDown less lo (xs.swapIfInBounds (i + 1) i) i
    else xs

/-- Moves the item before the index `i` up while its neighbour is less, at most `steps` times. -/
def moveUp (less : α → α → Bool) (xs : Array α) (i : Nat) : Nat → Array α
  | 0 => xs
  | steps + 1 =>
    if lessAt less xs i (i - 1) then moveUp less (xs.swapIfInBounds i (i - 1)) (i + 1) steps else xs

/-- Sorts a range by insertion. -/
def insertionSort (less : α → α → Bool) (xs : Array α) (a b : Nat) : Array α :=
  (List.range' (a + 1) (b - (a + 1))).foldl (fun xs i => moveDown less a xs i) xs

/-! ## A heap -/

/-- Lets the item at `root` sink in a heap of the first `size` items from `first` on. -/
def siftDown (less : α → α → Bool) (first size : Nat) : Nat → Array α → Nat → Array α
  | 0, xs, _ => xs
  | steps + 1, xs, root =>
    let left := 2 * root + 1
    if size ≤ left then xs
    else
      let child :=
        if left + 1 < size ∧ lessAt less xs (first + left) (first + left + 1) then left + 1
        else left
      if lessAt less xs (first + root) (first + child) then
        siftDown less first size steps (xs.swapIfInBounds (first + root) (first + child)) child
      else xs

/-- Sorts a range on a heap with the greatest item at its top. -/
def heapSort (less : α → α → Bool) (xs : Array α) (a b : Nat) : Array α :=
  let size := b - a
  let heap := (List.range ((size - 1) / 2 + 1)).reverse.foldl
    (fun xs i => siftDown less a size size xs i) xs
  (List.range size).reverse.foldl
    (fun xs i => siftDown less a i size (xs.swapIfInBounds a (a + i)) 0) heap

/-! ## Patterns -/

/-- What a sample says about a range. -/
inductive Hint where
  | increasing
  | decreasing
  | unknown
deriving DecidableEq, Repr

/-- Two indices in the order of their items, and whether they had to change places. -/
def orderTwo (less : α → α → Bool) (xs : Array α) (i j : Nat) : Nat × Nat × Nat :=
  if lessAt less xs j i then (j, i, 1) else (i, j, 0)

/-- The index of the median of three items, and the changes of places that it took. -/
def median (less : α → α → Bool) (xs : Array α) (i j k : Nat) : Nat × Nat :=
  let (i, j, first) := orderTwo less xs i j
  let (j, _, second) := orderTwo less xs j k
  let (_, j, third) := orderTwo less xs i j
  (j, first + second + third)

/-- The index of the median of an item and its neighbours. -/
def medianNear (less : α → α → Bool) (xs : Array α) (i : Nat) : Nat × Nat :=
  median less xs (i - 1) i (i + 1)

/-- A pivot: the median of a sample of three items, or in a long range of three medians. -/
def choosePivot (less : α → α → Bool) (xs : Array α) (a b : Nat) : Nat × Hint :=
  let quarter := (b - a) / 4
  let (i, j, k) := (a + quarter, a + quarter * 2, a + quarter * 3)
  let (pivot, swaps) :=
    if b - a < 50 then median less xs i j k
    else
      let (i, first) := medianNear less xs i
      let (j, second) := medianNear less xs j
      let (k, third) := medianNear less xs k
      let (pivot, last) := median less xs i j k
      (pivot, first + second + third + last)
  (pivot, if swaps = 0 then .increasing else if swaps = 12 then .decreasing else .unknown)

/-- Turns a range around. -/
def reverseRange (xs : Array α) (a b : Nat) : Array α :=
  (List.range ((b - a) / 2)).foldl (fun xs i => xs.swapIfInBounds (a + i) (b - 1 - i)) xs

/-- The next number of a sequence that looks random. -/
def scramble (n : UInt64) : UInt64 :=
  let n := n ^^^ (n <<< 13)
  let n := n ^^^ (n >>> 7)
  n ^^^ (n <<< 17)

/-- How many binary digits a number has. -/
def binaryLength (n : Nat) : Nat :=
  if n = 0 then 0 else n.log2 + 1

/-- Scatters three items of a range: the one in the middle, at twice a quarter of the length, and its
neighbours on both sides. -/
def scatter (xs : Array α) (a b : Nat) : Array α :=
  let length := b - a
  let middle := a + length / 4 * 2
  let place (n : UInt64) : Nat :=
    let other := n.toNat % Nat.pow 2 (binaryLength length)
    if length ≤ other then other - length else other
  let first := scramble length.toUInt64
  let second := scramble first
  let third := scramble second
  let xs := xs.swapIfInBounds (middle - 1) (a + place first)
  let xs := xs.swapIfInBounds middle (a + place second)
  xs.swapIfInBounds (middle + 1) (a + place third)

/-! ## Splitting a range -/

/-- The first index from `i` on, among `count`, that does not pass. -/
def scanUp (pass : Nat → Bool) (i : Nat) : Nat → Nat
  | 0 => i
  | count + 1 => if pass i then scanUp pass (i + 1) count else i

/-- The last index up to `j`, among `count`, that does not pass. -/
def scanDown (pass : Nat → Bool) (j : Nat) : Nat → Nat
  | 0 => j
  | count + 1 => if pass j then scanDown pass (j - 1) count else j

/-- Sorts a range that is nearly sorted, and says whether it is sorted now. Only in a long range are
items moved, and only a few. -/
def nearlySort (less : α → α → Bool) (a b : Nat) : Nat → Array α → Nat → Array α × Bool
  | 0, xs, _ => (xs, false)
  | tries + 1, xs, i =>
    let i := scanUp (fun i => !lessAt less xs i (i - 1)) i (b - i)
    if i = b then (xs, true)
    else if b - a < 50 then (xs, false)
    else
      let xs := xs.swapIfInBounds i (i - 1)
      let xs := if 2 ≤ i - a then moveDown less 0 xs (i - 1) else xs
      let xs := if 2 ≤ b - i then moveUp less xs (i + 1) (b - (i + 1)) else xs
      nearlySort less a b tries xs i

/-- Exchanges items that are on the wrong sides, from both ends, until the ends meet: `low` items
may stay below and `high` ones above. Gives the index where each end stands. -/
def exchange (low high : Array α → Nat → Bool) : Nat → Array α → Nat → Nat → Array α × Nat × Nat
  | 0, xs, i, j => (xs, i, j)
  | steps + 1, xs, i, j =>
    let i := scanUp (low xs) i (j + 1 - i)
    let j := scanDown (high xs) j (j + 1 - i)
    if j < i then (xs, i, j)
    else exchange low high steps (xs.swapIfInBounds i j) (i + 1) (j - 1)

/-- Splits a range at a pivot into the lesser items and the others. Gives the index of the pivot
then, and whether the range was split that way already. -/
def split (less : α → α → Bool) (xs : Array α) (a b pivot : Nat) : Array α × Nat × Bool :=
  let xs := xs.swapIfInBounds a pivot
  let low (xs : Array α) (i : Nat) := lessAt less xs i a
  let high (xs : Array α) (j : Nat) := !lessAt less xs j a
  let i := scanUp (low xs) (a + 1) (b - (a + 1))
  let j := scanDown (high xs) (b - 1) (b - i)
  let (xs, _, j, already) :=
    if j < i then (xs, i, j, true)
    else
      let (xs, i, j) := exchange low high (b - a) (xs.swapIfInBounds i j) (i + 1) (j - 1)
      (xs, i, j, false)
  (xs.swapIfInBounds j a, j, already)

/-- Splits a range without items less than the pivot into the items equal to it and the greater
ones. Gives the index of the first greater one. -/
def splitEqual (less : α → α → Bool) (xs : Array α) (a b pivot : Nat) : Array α × Nat :=
  let low (xs : Array α) (i : Nat) := !lessAt less xs a i
  let high (xs : Array α) (j : Nat) := lessAt less xs a j
  let (xs, i, _) := exchange low high (b - a) (xs.swapIfInBounds a pivot) (a + 1) (b - 1)
  (xs, i)

/-! ## The sort -/

/-- What is known about a range: its ends, how many unbalanced splits it may still take, and whether
the last split was balanced and had nothing to do. -/
structure Task where
  a : Nat
  b : Nat
  limit : Nat
  balanced : Bool := true
  settled : Bool := true

/-- Sorts a range. Every split makes the range shorter, so its length bounds the `steps`. -/
def sortRange (less : α → α → Bool) : Nat → Array α → Task → Array α
  | 0, xs, _ => xs
  | steps + 1, xs, t =>
    let length := t.b - t.a
    if length ≤ 12 then insertionSort less xs t.a t.b
    else if t.limit = 0 then heapSort less xs t.a t.b
    else
      let (xs, limit) := if t.balanced then (xs, t.limit) else (scatter xs t.a t.b, t.limit - 1)
      let (pivot, hint) := choosePivot less xs t.a t.b
      let (xs, pivot) :=
        if hint = .decreasing then (reverseRange xs t.a t.b, t.b - 1 - (pivot - t.a))
        else (xs, pivot)
      let (xs, sorted) :=
        if t.balanced && t.settled && hint != .unknown then
          nearlySort less t.a t.b 5 xs (t.a + 1)
        else (xs, false)
      if sorted then xs
      else if 0 < t.a ∧ ¬ lessAt less xs (t.a - 1) pivot then
        let (xs, mid) := splitEqual less xs t.a t.b pivot
        sortRange less steps xs { t with a := mid, limit }
      else
        let (xs, mid, settled) := split less xs t.a t.b pivot
        let below := mid - t.a
        let above := t.b - mid
        if below < above then
          let xs := sortRange less steps xs { a := t.a, b := mid, limit }
          sortRange less steps xs
            { a := mid + 1, b := t.b, limit, balanced := decide (length / 8 ≤ below), settled }
        else
          let xs := sortRange less steps xs { a := mid + 1, b := t.b, limit }
          sortRange less steps xs
            { a := t.a, b := mid, limit, balanced := decide (length / 8 ≤ above), settled }

/-- Sorts a list. -/
def sort (less : α → α → Bool) (xs : List α) : List α :=
  let n := xs.length
  (sortRange less (n + 1) xs.toArray { a := 0, b := n, limit := binaryLength n }).toList

end LittleLisp.Sorting
