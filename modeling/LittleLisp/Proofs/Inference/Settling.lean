import LittleLisp.Proofs.Inference.DirectRecursion
import LittleLisp.Proofs.Lowering.Settings
import Mathlib.NumberTheory.FrobeniusNumber
import Mathlib.Order.Filter.Finite

/-!
# Which programs settle

Parameters always settle. A result may not: while a parameter that a function returns has no type
yet, the function's result is `any`, and in a cycle of functions that return each other's results
this `any` goes round for ever, each function handing it on and losing it again. `swingForms` is such
a program.

That takes a parameter that gets its type late, and a cycle of functions in which the `any` does not
meet its own trace: all ways from a function back to itself have lengths with a common divisor
above 1. Else there are ways back of every length from some length on (`exists_ways_back`), so that
the result of the function is never narrower than it was long before, and there are only finitely
many types (`retSettles_of_ways_back`). Functions that lie on no cycle settle a round after those
whose results they return.

Once all functions are settled, a higher limit changes neither the result of inference nor the unit
that is compiled with it (`infer_settles`).
-/

namespace LittleLisp

namespace SymbolTable

variable {t : SymbolTable}

/-- A function may return what another returns, after so many steps from callee to callee. -/
inductive ReturnsIn (t : SymbolTable) : Nat → Definition → Definition → Prop where
  | refl (d : Definition) : ReturnsIn t 0 d d
  | step {n : Nat} {d m e : Definition} (first : t.Returns d m) (later : ReturnsIn t n m e) :
    ReturnsIn t (n + 1) d e

theorem ReturnsIn.trans {n k : Nat} {d m e : Definition} (there : t.ReturnsIn n d m)
    (further : t.ReturnsIn k m e) : t.ReturnsIn (n + k) d e := by
  induction there with
  | refl => simpa using further
  | @step n d m _ first _ ih =>
    have way := ReturnsIn.step first (ih further)
    rwa [Nat.add_right_comm] at way

theorem exists_returnsIn_of_reach {d e : Definition} (he : e ∈ t.reach d) :
    ∃ n, t.ReturnsIn n d e := by
  induction he using Relation.ReflTransGen.head_induction_on with
  | refl => exact ⟨0, .refl e⟩
  | head first _ ih =>
    obtain ⟨n, way⟩ := ih
    exact ⟨n + 1, .step first way⟩

/-- A function that lies on no cycle cannot be reached from one that it returns. -/
theorem not_mem_reach_of_no_cycle {d e : Definition} (returns : t.Returns d e)
    (alone : ¬ ∃ k, 0 < k ∧ t.ReturnsIn k d d) : d ∉ t.reach e := by
  intro back
  obtain ⟨n, way⟩ := exists_returnsIn_of_reach back
  exact alone ⟨n + 1, by omega, .step returns way⟩

/-- If the lengths of the ways from a function back to itself have no common divisor above 1, then
every length from some length on is that of a way. -/
theorem exists_ways_back {d : Definition}
    (coprime : ¬ ∃ p, 2 ≤ p ∧ ∀ k, t.ReturnsIn k d d → p ∣ k) :
    ∃ lag, ∀ k, lag ≤ k → t.ReturnsIn k d d := by
  -- Ways can be put one after another, so their lengths are closed under addition.
  let lengths : AddSubmonoid Nat :=
    { carrier := {k | t.ReturnsIn k d d}
      zero_mem' := .refl d
      add_mem' := ReturnsIn.trans }
  obtain ⟨lag, all⟩ := Nat.exists_mem_closure_of_ge (lengths : Set Nat)
  have divides (k : Nat) (way : t.ReturnsIn k d d) : Nat.setGcd lengths ∣ k :=
    Nat.setGcd_dvd_of_mem way
  have one : Nat.setGcd (lengths : Set Nat) = 1 := by
    by_contra other
    apply coprime
    by_cases zero : Nat.setGcd (lengths : Set Nat) = 0
    · refine ⟨2, le_refl 2, ?_⟩
      intro k way
      have := divides k way
      rw [zero, zero_dvd_iff] at this
      simp [this]
    · exact ⟨_, by omega, divides⟩
  refine ⟨lag, ?_⟩
  intro k late
  have member := all k late (by simp [one])
  rwa [AddSubmonoid.closure_eq] at member

end SymbolTable

namespace Inference

open Filter (atTop eventually_atTop)

variable {t : SymbolTable}

/-- A function may return a parameter that has not got its type after one round. -/
def ReturnsLate (t : SymbolTable) (d : Definition) : Prop :=
  ∃ name, t.ReturnsName d name ∧
    ∃ n, (stage t (n + 1) d).typeOf name ≠ (stage t 1 d).typeOf name

/-- A function may go on changing: it gets back the result that it hands on, only ever after
multiples of some number of rounds above 1, and that result may be a parameter that gets its type
late. -/
structure MaySwing (t : SymbolTable) (d : Definition) : Prop where
  cycle : ∃ k, 0 < k ∧ t.ReturnsIn k d d
  period : ∃ p, 2 ≤ p ∧ ∀ k, t.ReturnsIn k d d → p ∣ k
  late : ∃ e ∈ t.reach d, ReturnsLate t e

/-- From some round on the result of a function does not change. -/
def RetSettles (t : SymbolTable) (d : Definition) : Prop :=
  ∀ᶠ n in atTop, (stage t (n + 1) d).ret = (stage t n d).ret

/-- A result settles if from some lag on it is never narrower than it was. -/
theorem retSettles_of_le {d : Definition} {lag : Nat}
    (rises : ∀ n k, lag ≤ k → (stage t n d).ret ≤ (stage t (n + k) d).ret) : RetSettles t d :=
  ValueType.eventually_succ_eq (f := fun n => (stage t n d).ret) rises

/-! ## Functions that get their own result back -/

/-- A function's result is at least as wide as the results that it hands on were so many rounds
before as it takes to hand them on. -/
theorem ret_le_of_returnsIn (h : t.Sound) (n : Nat) {k : Nat} {d e : Definition}
    (way : t.ReturnsIn k d e) : (stage t n e).ret ≤ (stage t (n + k) d).ret := by
  induction way with
  | refl => exact le_refl _
  | @step k d m e first _ ih => exact ih.trans (ret_le_of_returns h (n + k) first)

theorem retSettles_of_ways_back (h : t.Sound) {d : Definition}
    (coprime : ¬ ∃ p, 2 ≤ p ∧ ∀ k, t.ReturnsIn k d d → p ∣ k) : RetSettles t d := by
  obtain ⟨lag, back⟩ := SymbolTable.exists_ways_back coprime
  apply retSettles_of_le
  intro n k late
  exact ret_le_of_returnsIn h n (back k late)

/-! ## Functions that return no late parameter -/

/-- As long as nothing that a function may return is a late parameter, its result only gets wider. -/
theorem ret_le_ret_succ (h : t.Sound) (new : ∀ d ∈ t.functions, d.IsNew) {d : Definition}
    (hd : d ∈ t.functions) (early : ¬ ∃ e ∈ t.reach d, ReturnsLate t e) (n : Nat) :
    ∀ e ∈ t.reach d, (stage t n e).ret ≤ (stage t (n + 1) e).ret := by
  induction n with
  | zero =>
    intro e he
    have member := SymbolTable.mem_functions_of_reach h hd he
    rw [stage_zero, (new e member).ret]
    exact ValueType.nothing_le _
  | succ n ih =>
    intro e he
    apply ret_le_ret h (SymbolTable.mem_functions_of_reach h hd he)
    · intro g returns
      exact ih g (Relation.ReflTransGen.tail he returns)
    · intro name returned
      have same (k : Nat) : (stage t (k + 1) e).typeOf name = (stage t 1 e).typeOf name := by
        by_contra late
        exact early ⟨e, he, name, returned, k, late⟩
      rw [same n, same (n + 1)]

theorem retSettles_of_early (h : t.Sound) (new : ∀ d ∈ t.functions, d.IsNew) {d : Definition}
    (hd : d ∈ t.functions) (early : ¬ ∃ e ∈ t.reach d, ReturnsLate t e) : RetSettles t d := by
  have rises : Monotone fun n => (stage t n d).ret :=
    monotone_nat_of_le_succ fun n => ret_le_ret_succ h new hd early n d Relation.ReflTransGen.refl
  apply retSettles_of_le
  intro n k (_ : 0 ≤ k)
  exact rises (by omega : n ≤ n + k)

/-! ## Functions on no cycle -/

theorem eventually_paramsSettled (h : t.Sound) (new : ∀ d ∈ t.functions, d.IsNew) :
    ∀ᶠ n in atTop, ParamsSettled t n :=
  eventually_atTop.2 ⟨t.paramCount, fun _ late => params_settled h new late⟩

/-- A function settles after all functions whose results it returns. -/
theorem retSettles_of_returns (h : t.Sound) (new : ∀ d ∈ t.functions, d.IsNew) {d : Definition}
    (hd : d ∈ t.functions) (callees : ∀ e, t.Returns d e → RetSettles t e) : RetSettles t d := by
  have finite : {e | t.Returns d e}.Finite :=
    t.functions.finite_toSet.subset fun e returns => returns.mem_functions h
  have together := (Filter.eventually_all_finite finite).2 callees
  obtain ⟨N, settled⟩ := eventually_atTop.1 (together.and (eventually_paramsSettled h new))
  apply eventually_atTop.2
  refine ⟨N + 1, ?_⟩
  intro n late
  obtain ⟨n, rfl⟩ : ∃ m, n = m + 1 := ⟨n - 1, by omega⟩
  apply ret_absorbs h hd
  · exact fun e returns _ => (settled n (by omega)).1 e returns
  · exact (settled (n + 1) (by omega)).2 d hd

/-! ## Programs -/

/-- If no function may swing, every result settles. -/
theorem retSettles_of_steady (h : t.Sound) (new : ∀ d ∈ t.functions, d.IsNew)
    (steady : ∀ d ∈ t.functions, ¬ MaySwing t d) {d : Definition} (hd : d ∈ t.functions) :
    RetSettles t d := by
  -- Functions on no cycle are settled by those that they return, which reach fewer functions.
  induction few : (t.reach d).ncard using Nat.strong_induction_on generalizing d with
  | _ count ih =>
    by_cases late : ∃ e ∈ t.reach d, ReturnsLate t e
    · by_cases cycle : ∃ k, 0 < k ∧ t.ReturnsIn k d d
      · apply retSettles_of_ways_back h
        exact fun period => steady d hd ⟨cycle, period, late⟩
      · apply retSettles_of_returns h new hd
        intro e returns
        have apart := SymbolTable.not_mem_reach_of_no_cycle returns cycle
        have fewer := SymbolTable.ncard_reach_lt h returns apart
        exact ih _ (few ▸ fewer) (returns.mem_functions h) rfl
    · exact retSettles_of_early h new hd late

/-- If no function may swing, the table is stable after some rounds. -/
theorem exists_stable (h : t.Sound) (new : ∀ d ∈ t.functions, d.IsNew)
    (steady : ∀ d ∈ t.functions, ¬ MaySwing t d) : ∃ n, round (round^[n] t) = round^[n] t := by
  have results : ∀ᶠ n in atTop, ∀ d ∈ t.functions, (stage t (n + 1) d).ret = (stage t n d).ret :=
    (Filter.eventually_all_finite t.functions.finite_toSet).2 fun d hd =>
      retSettles_of_steady h new steady hd
  obtain ⟨n, settled⟩ := (results.and (eventually_paramsSettled h new)).exists
  refine ⟨n, ?_⟩
  apply round_of_stage_eq h
  intro d hd
  exact stage_eq_stage (settled.2 d hd) (settled.1 d hd)

/-- Raising the limit of inference changes no parameter from some limit on. If no function may
swing, then from some limit on inference converges, and raising the limit changes nothing: neither
what is inferred nor what is compiled. -/
theorem infer_settles {forms : List Node} (build : SymbolTable.ofForms forms = .ok t) :
    (∃ N : Nat, ∀ max : Int, N ≤ max →
      (infer t max).table.functions.map (·.params) =
        (infer t N).table.functions.map (·.params)) ∧
    ((∀ d ∈ t.functions, ¬ MaySwing t d) →
      ∃ N : Nat, ∀ max : Int, N ≤ max →
        (infer t max).converged = true ∧ infer t max = infer t N ∧
          ∀ (file : String) (s : Settings),
            CompiledUnit.ofForms file forms { s with maxRounds := max } =
              CompiledUnit.ofForms file forms { s with maxRounds := N }) := by
  have sound := SymbolTable.sound_ofForms build
  have new := SymbolTable.isNew_ofForms build
  constructor
  · refine ⟨t.paramCount + 1, ?_⟩
    intro max enough
    have settled (k : Nat) (late : t.paramCount ≤ k) : ParamsSettled t k :=
      params_settled sound new late
    rw [table_infer sound (by omega), table_infer sound (by omega), functions_iterate sound,
      functions_iterate sound, List.map_map, List.map_map]
    apply List.map_congr_left
    intro d hd
    have first := params_stage_eq settled (m := (t.paramCount + 1 : Nat)) (by omega) hd
    have later := params_stage_eq settled (m := max.toNat) (by omega) hd
    exact later.trans first.symm
  · intro steady
    obtain ⟨n, stable⟩ := exists_stable sound new steady
    obtain ⟨rounds, -, ran⟩ := infer_of_stable sound stable
    refine ⟨n + 1, ?_⟩
    intro max enough
    have same : infer t max = infer t (n + 1 : Nat) := by
      rw [ran max (by omega), ran _ (by omega)]
    refine ⟨?_, same, ?_⟩
    · rw [ran max (by omega)]
    · exact CompiledUnit.ofForms_of_infer_eq build (by omega) (by omega) same

open Sample

/-- Two functions that return each other's results and integers. -/
def evenForms : List Node :=
  let parity (this other : String) (last : Int) : Node :=
    defun this ["n"] (form [name "if", name "n",
      form [name other, form [name "-", name "n", .int 1 here]], .int last here])
  [parity "even" "odd" 1, parity "odd" "even" 0]

theorem infer_settles_even : ∃ t, SymbolTable.ofForms evenForms = .ok t ∧
    (∀ d ∈ t.functions, ¬ MaySwing t d) ∧
      ∃ N : Nat, ∀ max : Int, N ≤ max → (infer t max).converged = true := by
  obtain ⟨t, build, checked⟩ : ∃ t, SymbolTable.ofForms evenForms = .ok t ∧
      (t.functions.all fun d => d.body.all fun body => (body.results t).all fun m =>
        (Node.head? [m]).isNone) = true :=
    exists_eq_ok (by decide +kernel)
  simp only [List.all_eq_true, Option.all_eq_true] at checked
  have sound := SymbolTable.sound_ofForms build
  have steady : ∀ d ∈ t.functions, ¬ MaySwing t d := by
    rintro d hd ⟨-, -, e, he, name, ⟨body, l, written, member, -⟩, -⟩
    have never := checked e (SymbolTable.mem_functions_of_reach sound hd he) body written _ member
    cases never
  obtain ⟨-, settles⟩ := infer_settles build
  obtain ⟨N, settled⟩ := settles steady
  exact ⟨t, build, steady, N, fun max enough => (settled max enough).1⟩

/-! ## A program that never settles -/

/-- A table that rounds come back to is stable if they ever come to a stable one. -/
theorem stable_of_return {n p k : Nat} (positive : 0 < p)
    (back : round^[p] (round^[n] t) = round^[n] t) (stable : round (round^[k] t) = round^[k] t) :
    round (round^[n] t) = round^[n] t := by
  have again : round^[p * k] (round^[n] t) = round^[n] t := by
    rw [Function.iterate_mul]
    exact Function.iterate_fixed back k
  have enough : k ≤ p * k := Nat.le_mul_of_pos_left k positive
  have ends : round^[p * k] (round^[n] t) = round^[k] t := by
    rw [← Function.iterate_add_apply, show p * k + n = (p * k + n - k) + k by omega,
      Function.iterate_add_apply]
    exact Function.iterate_fixed stable _
  rw [← again, ends, stable]

/-- Two functions that return each other's results, one of which also returns a parameter that is
known to be an integer from the second round on. -/
def swingForms : List Node :=
  [defun "h" ["x"] (form [name "+", name "x", .int 1 here]),
   defun "f" ["y"] (.cond
     [(form [name "h", name "y"], name "y"), (name "T", form [name "g"])] here),
   defun "g" [] (form [name "f", .int 1 here])]

/-- Inference over this program never converges, and every further round changes its types. -/
theorem infer_swing : ∃ t, SymbolTable.ofForms swingForms = .ok t ∧
    ∀ max : Int, (infer t max).converged = false ∧
      (0 < max → (infer t (max + 1)).table.sameTypes (infer t max).table = false) := by
  obtain ⟨t, build, checked⟩ : ∃ t, SymbolTable.ofForms swingForms = .ok t ∧
      ((round^[4] t).sameTypes (round^[2] t), (round^[3] t).sameTypes (round^[2] t)) =
        (true, false) :=
    exists_eq_ok (by decide +kernel)
  obtain ⟨back, moves⟩ := Prod.mk.inj checked
  have sound := SymbolTable.sound_ofForms build
  have comes_back : round^[2] (round^[2] t) = round^[2] t := by
    rw [← Function.iterate_add_apply]
    exact (sameTypes_iterate_iff sound).1 back
  have never (k : Nat) : round (round^[k] t) ≠ round^[k] t := by
    intro stable
    have still := stable_of_return (by decide) comes_back stable
    rw [← Function.iterate_succ_apply' round, ← sameTypes_iterate_iff sound, moves] at still
    cases still
  refine ⟨t, build, ?_⟩
  intro max
  constructor
  · rw [← Bool.not_eq_true, infer, converged_run_iff sound]
    rintro ⟨k, -, stable⟩
    exact never k stable
  · intro positive
    have next : (max + 1).toNat = max.toNat + 1 := by omega
    rw [table_infer sound positive, table_infer sound (by omega), next, ← Bool.not_eq_true,
      sameTypes_iterate_iff sound, Function.iterate_succ_apply']
    exact never max.toNat

end Inference

end LittleLisp
