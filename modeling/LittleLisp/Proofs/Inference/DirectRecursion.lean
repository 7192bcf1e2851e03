import LittleLisp.Proofs.Inference.Acyclic
import LittleLisp.Proofs.Inference.Results
import Mathlib.Data.Set.Card

/-!
# Programs without mutual recursion

Once its parameters and the results of all other functions that it hands on are settled, a function
is settled one round later, also if it hands on its own result: from then on its result is the join
of something fixed and the result itself, and a join absorbs that (`ret_absorbs`).

If every function that calls itself does so directly, then the functions that can be reached from a
callee are fewer than those that can be reached from the function. So results are settled, at the
latest, a round for each function after the parameters are (`infer_direct`).
-/

namespace LittleLisp

/-- The results of a tree are trees inside it. -/
theorem Node.mem_walk_of_mem_results {t : SymbolTable} {n m : Node} (h : m ∈ n.results t) :
    m ∈ n.walk := by
  refine mem_results_induction (motive := fun n => m ∈ n.walk) ?_ ?_ ?_ h
  · exact fun _ _ => self_mem_walk m
  · exact fun clauses l c hc inside => mem_walk_cond l hc (.inr inside)
  · rintro name at_ condition yes no l (inside | inside)
    · exact mem_walk_call l (by simp) inside
    · exact mem_walk_call l (by simp) inside

namespace SymbolTable

variable {t : SymbolTable}

/-- Every function of the program that calls itself, directly or through others, does so through
itself alone. -/
def IsDirectlyRecursive (t : SymbolTable) : Prop :=
  ∀ d e, Relation.TransGen t.Calls d e → Relation.TransGen t.Calls e d → d = e

/-- All recursion is direct if every function has a higher rank than the others that it calls. -/
theorem isDirectlyRecursive_of_rank (h : t.Sound) (rank : Definition → Nat)
    (falls : ∀ d ∈ t.functions, ∀ body, d.body = some body → ∀ e ∈ body.calls t,
      rank e < rank d ∨ e.name = d.name) : t.IsDirectlyRecursive := by
  have : IsTrans Definition fun d e => rank e < rank d ∨ d = e := by
    constructor
    rintro a b c (first | rfl) (later | rfl)
    · exact .inl (later.trans first)
    · exact .inl first
    · exact .inl later
    · exact .inr rfl
  have step (d : Definition) (hd : d ∈ t.functions) (body : Node) (written : d.body = some body)
      (e : Definition) (he : e ∈ body.calls t) : rank e < rank d ∨ d = e := by
    rcases falls d hd body written e he with lower | name
    · exact .inl lower
    · have same := List.inj_on_of_nodup_map h.nodup_functions hd (h.mem_functions_of_calls he)
      exact .inr (same name.symm)
  intro d e there back
  rcases rel_of_calls step there with lower | same
  · rcases rel_of_calls step back with higher | same
    · omega
    · exact same.symm
  · exact same

theorem Returns.calls {d e : Definition} (h : t.Returns d e) : t.Calls d e := by
  obtain ⟨hd, body, written, he⟩ := h
  obtain ⟨found, function⟩ := List.mem_filter.1 he
  obtain ⟨m, hm, callee⟩ := List.mem_filterMap.1 found
  refine ⟨hd, body, written, List.mem_filter.2 ⟨List.mem_filterMap.2 ⟨m, ?_, callee⟩, function⟩⟩
  exact Node.mem_walk_of_mem_results hm

theorem Returns.mem_functions (sound : t.Sound) {d e : Definition} (h : t.Returns d e) :
    e ∈ t.functions := by
  obtain ⟨-, body, -, he⟩ := h.calls
  exact sound.mem_functions_of_calls he

/-- The functions whose results a function may return in the end. -/
def reach (t : SymbolTable) (d : Definition) : Set Definition :=
  {e | Relation.ReflTransGen t.Returns d e}

theorem mem_functions_of_reach (h : t.Sound) {d e : Definition} (hd : d ∈ t.functions)
    (he : e ∈ t.reach d) : e ∈ t.functions := by
  induction he with
  | refl => exact hd
  | tail _ step _ => exact step.mem_functions h

theorem finite_reach (h : t.Sound) {d : Definition} (hd : d ∈ t.functions) :
    (t.reach d).Finite :=
  t.functions.finite_toSet.subset fun _ he => mem_functions_of_reach h hd he

/-- There are no more functions in a set than in the program. -/
theorem ncard_le_of_functions {s : Set Definition} (hs : ∀ d ∈ s, d ∈ t.functions) :
    s.ncard ≤ t.functions.length := by
  classical
  calc s.ncard
      ≤ (↑t.functions.toFinset : Set Definition).ncard := by
        apply Set.ncard_le_ncard
        · intro e he
          simpa using hs e he
        · exact t.functions.toFinset.finite_toSet
    _ = t.functions.toFinset.card := Set.ncard_coe_finset _
    _ ≤ t.functions.length := t.functions.toFinset_card_le

theorem ncard_reach_le (h : t.Sound) {d : Definition} (hd : d ∈ t.functions) :
    (t.reach d).ncard ≤ t.functions.length :=
  ncard_le_of_functions fun _ he => mem_functions_of_reach h hd he

/-- A function that cannot be reached from one that it returns reaches more functions. -/
theorem ncard_reach_lt (h : t.Sound) {d e : Definition} (returns : t.Returns d e)
    (apart : d ∉ t.reach e) : (t.reach e).ncard < (t.reach d).ncard := by
  apply Set.ncard_lt_ncard
  · constructor
    · exact fun g hg => Relation.ReflTransGen.head returns hg
    · exact fun subset => apart (subset Relation.ReflTransGen.refl)
  · exact finite_reach h returns.1

theorem not_mem_reach (direct : t.IsDirectlyRecursive) {d e : Definition}
    (returns : t.Returns d e) (other : e ≠ d) : d ∉ t.reach e := by
  intro back
  have there : Relation.TransGen t.Calls d e := .single returns.calls
  have again : Relation.ReflTransGen t.Calls e d :=
    Relation.ReflTransGen.mono (fun _ _ step => step.calls) _ _ back
  rcases Relation.reflTransGen_iff_eq_or_transGen.1 again with same | cycle
  · exact other same.symm
  · exact other (direct d e there cycle).symm

end SymbolTable

namespace Inference

variable {t : SymbolTable}

theorem typeOf_congr {d e : Definition} (params : d.params = e.params) (name : String) :
    d.typeOf name = e.typeOf name := by
  simp only [Definition.typeOf, Definition.paramType?, params]

/-- A function is settled a round after its parameters and the results of the other functions that
it hands on. -/
theorem ret_absorbs (h : t.Sound) {n : Nat} {d : Definition} (hd : d ∈ t.functions)
    (callees : ∀ e, t.Returns d e → e ≠ d → (stage t (n + 1) e).ret = (stage t n e).ret)
    (params : (stage t (n + 2) d).params = (stage t (n + 1) d).params) :
    (stage t (n + 2) d).ret = (stage t (n + 1) d).ret := by
  obtain ⟨body, written⟩ := Option.isSome_iff_exists.1 (h.isFunction hd).body
  have all := (ret_le_iff h n written).1 (le_refl _)
  apply le_antisymm
  · apply (ret_le_iff h (n + 1) written).2
    intro m hm
    by_cases self : m.callee? t = some d
    · rw [resultAt_of_callee h (n + 1) d self]
    · refine le_trans (resultAt_le h ?_ ?_) (all m hm)
      · intro e he callee
        have other : e ≠ d := by
          rintro rfl
          exact self callee
        exact (callees e (returns_of_mem h hd written hm callee he) other).le
      · exact fun name _ _ _ => (typeOf_congr params name).le
  · by_cases self : t.Returns d d
    · exact ret_le_of_returns h (n + 1) self
    · apply ret_le_ret h hd
      · intro e returns
        have other : e ≠ d := by
          rintro rfl
          exact self returns
        exact (callees e returns other).ge
      · exact fun name _ => (typeOf_congr params name).ge

/-- Without mutual recursion, a result is settled so many rounds after the parameters as functions
can be reached. -/
theorem ret_settled (h : t.Sound) (direct : t.IsDirectlyRecursive) {p : Nat}
    (params : ∀ n, p ≤ n → ParamsSettled t n) {k : Nat} {d : Definition} (hd : d ∈ t.functions)
    (few : (t.reach d).ncard ≤ k) {n : Nat} (late : p + k ≤ n) :
    (stage t (n + 1) d).ret = (stage t n d).ret := by
  induction k generalizing d n with
  | zero =>
    have itself : d ∈ t.reach d := Relation.ReflTransGen.refl
    have positive := (Set.ncard_pos (SymbolTable.finite_reach h hd)).2 ⟨d, itself⟩
    omega
  | succ k ih =>
    obtain ⟨n, rfl⟩ : ∃ m, n = m + 1 := ⟨n - 1, by omega⟩
    apply ret_absorbs h hd
    · intro e returns other
      have fewer := SymbolTable.ncard_reach_lt h returns (SymbolTable.not_mem_reach direct returns other)
      exact ih (returns.mem_functions h) (by omega) (by omega)
    · exact params (n + 1) (by omega) d hd

/-- Inference over a program in which all recursion is direct converges in at most as many rounds as
there are parameters and functions, and one more. -/
theorem infer_direct {forms : List Node} (build : SymbolTable.ofForms forms = .ok t)
    (direct : t.IsDirectlyRecursive) {max : Int}
    (enough : (t.paramCount : Int) + t.functions.length + 1 ≤ max) :
    (infer t max).converged = true ∧
      (infer t max).rounds ≤ t.paramCount + t.functions.length + 1 := by
  have sound := SymbolTable.sound_ofForms build
  have settled (n : Nat) (late : t.paramCount ≤ n) : ParamsSettled t n :=
    params_settled sound (SymbolTable.isNew_ofForms build) late
  have stable : round (round^[t.paramCount + t.functions.length] t) =
      round^[t.paramCount + t.functions.length] t := by
    apply round_of_stage_eq sound
    intro d hd
    apply stage_eq_stage
    · exact settled _ (by omega) d hd
    · exact ret_settled sound direct settled hd (SymbolTable.ncard_reach_le sound hd) (le_refl _)
  obtain ⟨rounds, bound, ran⟩ := infer_of_stable sound stable
  rw [ran max (by omega)]
  exact ⟨rfl, bound⟩

open Sample

/-- Two functions: one calls itself with its parameters in the other order, and one calls itself and
the first. -/
def turnForms : List Node :=
  [defun "turn" ["a", "b"]
     (form [name "if", name "a", form [name "turn", name "b", name "a"], name "b"]),
   defun "turned" ["x"] (form [name "turn", name "x", form [name "turned", name "x"]])]

theorem infer_direct_turn : ∃ t, SymbolTable.ofForms turnForms = .ok t ∧ t.IsDirectlyRecursive ∧
    t.paramCount = 3 ∧ t.functions.length = 2 ∧
      (infer t 6).converged = true ∧ (infer t 6).rounds ≤ 6 := by
  obtain ⟨t, build, checked⟩ : ∃ t, SymbolTable.ofForms turnForms = .ok t ∧
      (decide (t.paramCount = 3 ∧ t.functions.length = 2) &&
        t.functions.all fun d => d.body.all fun body => (body.calls t).all fun e =>
          decide (e.name.length < d.name.length ∨ e.name = d.name)) = true :=
    exists_eq_ok (by decide +kernel)
  simp only [Bool.and_eq_true, decide_eq_true_eq, List.all_eq_true, Option.all_eq_true] at checked
  obtain ⟨⟨params, functions⟩, falls⟩ := checked
  have sound := SymbolTable.sound_ofForms build
  have direct := SymbolTable.isDirectlyRecursive_of_rank sound (·.name.length) falls
  obtain ⟨converged, rounds⟩ := infer_direct build direct (by omega : _ ≤ (6 : Int))
  rw [params, functions] at rounds
  exact ⟨t, build, direct, params, functions, converged, rounds⟩

end Inference

end LittleLisp
