import LittleLisp.ValueType
import Mathlib.Order.Lattice
import Mathlib.Order.BoundedOrder.Basic
import Mathlib.Data.Set.Finite.List
import Mathlib.Order.Preorder.Finite
import Mathlib.Order.Filter.AtTopBot.Basic

/-!
# The order of types

Types are ordered by width: `nothing` is below every type, `any` is above every type, and the types
between them are not compared. In this order the results of a function are put together as their
join and the uses of a parameter as their meet, so what is said about either is said by its
universal property and not by cases on types.
-/

namespace LittleLisp.ValueType

instance : Max ValueType := ⟨inf⟩

instance : Min ValueType := ⟨sup⟩

instance : Lattice ValueType :=
  Lattice.mk' inf_comm inf_assoc sup_comm sup_assoc
    (by intro a b; cases a <;> cases b <;> rfl) (by intro a b; cases a <;> cases b <;> rfl)

instance : BoundedOrder ValueType where
  top := any
  le_top := by intro a; cases a <;> rfl
  bot := nothing
  bot_le := by intro a; cases a <;> rfl

instance : DecidableLE ValueType := fun a b => inferInstanceAs (Decidable (a.inf b = b))

@[simp] theorem le_any (a : ValueType) : a ≤ any := le_top

@[simp] theorem nothing_le (a : ValueType) : nothing ≤ a := bot_le

@[simp] theorem le_nothing_iff {a : ValueType} : a ≤ nothing ↔ a = nothing := le_bot_iff

theorem inf_le_iff {a b c : ValueType} : a.inf b ≤ c ↔ a ≤ c ∧ b ≤ c :=
  sup_le_iff

theorem le_sup_iff {a b c : ValueType} : c ≤ a.sup b ↔ c ≤ a ∧ c ≤ b :=
  le_inf_iff

theorem mem_all (a : ValueType) : a ∈ all := by
  cases a <;> decide

/-- Of two different types the narrower is `nothing` or the wider is `any`. -/
theorem le_iff {a b : ValueType} : a ≤ b ↔ b = any ∨ a = b ∨ a = nothing := by
  cases a <;> cases b <;> decide

/-- What all of some uses of a parameter say together. -/
def supAll (types : List ValueType) : ValueType :=
  types.foldr sup any

/-- What uses say together is the widest type that is no wider than any of theirs. -/
theorem le_supAll_iff {c : ValueType} {types : List ValueType} :
    c ≤ supAll types ↔ ∀ a ∈ types, c ≤ a := by
  induction types with
  | nil => simp [supAll]
  | cons a types ih =>
    rw [List.forall_mem_cons, ← ih]
    exact le_sup_iff

/-- What all of some results of a function say together. -/
def infAll (types : List ValueType) : ValueType :=
  types.foldr inf nothing

/-- What results say together is the narrowest type that is as wide as all of theirs. -/
theorem infAll_le_iff {c : ValueType} {types : List ValueType} :
    infAll types ≤ c ↔ ∀ a ∈ types, a ≤ c := by
  induction types with
  | nil => simp [infAll]
  | cons a types ih =>
    rw [List.forall_mem_cons, ← ih]
    exact inf_le_iff

/-- Neither the order of results matters nor how often one of them comes. -/
theorem infAll_congr {types others : List ValueType} (same : ∀ a, a ∈ types ↔ a ∈ others) :
    infAll types = infAll others := by
  apply eq_of_forall_ge_iff
  intro c
  simp only [infAll_le_iff, same]

/-- Types agree on one of them if all others are `nothing`. -/
def AgreeOn (types : List ValueType) (type : ValueType) : Prop :=
  type ∈ types ∧ ∀ a ∈ types, a = type ∨ a = nothing

theorem infAll_eq_nothing_iff {types : List ValueType} :
    infAll types = nothing ↔ ∀ a ∈ types, a = nothing := by
  simp only [← le_nothing_iff, infAll_le_iff]

theorem infAll_eq_iff_agreeOn {types : List ValueType} {type : ValueType} (bounded : type ≠ any)
    (inhabited : type ≠ nothing) : infAll types = type ↔ AgreeOn types type := by
  have below (a : ValueType) : a ≤ type ↔ a = type ∨ a = nothing := by
    simp only [le_iff, bounded, false_or]
  constructor
  · rintro rfl
    have each : ∀ a ∈ types, a = infAll types ∨ a = nothing := fun a ha =>
      (below a).1 (infAll_le_iff.1 le_rfl a ha)
    refine ⟨?_, each⟩
    -- If the join were not among the types, all of them would be `nothing`, and so would the join.
    by_contra missing
    refine inhabited (infAll_eq_nothing_iff.2 fun a ha => ?_)
    exact (each a ha).resolve_left (ne_of_mem_of_not_mem ha missing)
  · rintro ⟨among, each⟩
    apply le_antisymm
    · exact infAll_le_iff.2 fun a ha => (below a).2 (each a ha)
    · exact infAll_le_iff.1 le_rfl type among

theorem infAll_eq_any_iff {types : List ValueType} :
    infAll types = any ↔ (∃ a ∈ types, a ≠ nothing) ∧
      ∀ type, type ≠ any → type ≠ nothing → ¬ AgreeOn types type := by
  constructor
  · intro wide
    constructor
    · by_contra! none
      simp [infAll_eq_nothing_iff.2 none] at wide
    · intro type bounded inhabited agree
      rw [← infAll_eq_iff_agreeOn bounded inhabited, wide] at agree
      exact bounded agree.symm
  · rintro ⟨⟨a, ha, inhabited⟩, clash⟩
    by_contra bounded
    have something : infAll types ≠ nothing := fun none =>
      inhabited (infAll_eq_nothing_iff.1 none a ha)
    exact clash _ bounded something ((infAll_eq_iff_agreeOn bounded something).1 rfl)

instance : Finite ValueType :=
  Set.finite_univ_iff.1 (all.finite_toSet.subset fun a _ => mem_all a)

/-- A type that from some lag on is never narrower than it was stops changing: nothing that comes so
long after the widest that it ever is differs from that. -/
theorem eventually_succ_eq {f : Nat → ValueType} {lag : Nat}
    (rises : ∀ n k, lag ≤ k → f n ≤ f (n + k)) : ∀ᶠ n in Filter.atTop, f (n + 1) = f n := by
  obtain ⟨_, ⟨m, rfl⟩, widest⟩ := (Set.toFinite (Set.range f)).exists_maximal (Set.range_nonempty f)
  have last (n : Nat) (late : m + lag ≤ n) : f n = f m := by
    obtain ⟨k, rfl⟩ := Nat.exists_eq_add_of_le late
    have le : f m ≤ f (m + (lag + k)) := rises m (lag + k) (by omega)
    rw [Nat.add_assoc]
    exact le_antisymm (widest ⟨_, rfl⟩ le) le
  apply Filter.eventually_atTop.2
  refine ⟨m + lag, ?_⟩
  intro n late
  rw [last (n + 1) (by omega), last n late]

end LittleLisp.ValueType
