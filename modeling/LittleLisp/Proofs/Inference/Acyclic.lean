import LittleLisp.Proofs.Inference.Stage
import Mathlib.Data.List.Chain
import Mathlib.Data.List.Nodup
import Mathlib.Logic.Relation
import Mathlib.Order.Bounds.Basic
import Mathlib.Order.Lattice.Nat

/-!
# Programs without recursion

The functions of a program and their calls are a graph. If it has no cycle, then no chain of calls
meets a function twice, so there is a longest one. A function from which chains have at most `k`
functions does not change any more from round `k` on: all that its body calls has shorter chains and
is settled a round earlier, and a refinement reads nothing else. So the number of functions on the
longest chain is the number of rounds that settle the whole program (`infer_acyclic`).
-/

namespace LittleLisp

/-- The functions of the program that a tree calls, anywhere in it. -/
def Node.calls (t : SymbolTable) (n : Node) : List Definition :=
  (n.walk.filterMap (callee? t)).filter fun d => !d.isBuiltin

namespace SymbolTable

variable {t : SymbolTable}

/-- A function of the program calls another, or itself, somewhere in its body. -/
def Calls (t : SymbolTable) (d e : Definition) : Prop :=
  d ∈ t.functions ∧ ∃ body, d.body = some body ∧ e ∈ body.calls t

/-- Functions of the program, each of which calls the next one. -/
def IsCallChain (t : SymbolTable) (c : List Definition) : Prop :=
  (∀ d ∈ c, d ∈ t.functions) ∧ c.IsChain t.Calls

/-- No function of the program calls itself, directly or through others. -/
def IsAcyclic (t : SymbolTable) : Prop :=
  ∀ d, ¬ Relation.TransGen t.Calls d d

theorem Sound.mem_functions_of_calls (h : t.Sound) {n : Node} {d : Definition}
    (hd : d ∈ n.calls t) : d ∈ t.functions := by
  obtain ⟨found, function⟩ := List.mem_filter.1 hd
  obtain ⟨m, -, callee⟩ := List.mem_filterMap.1 found
  unfold Node.callee? at callee
  split at callee
  · exact h.mem_functions_of_lookup callee (by simpa using function)
  · cases callee

/-- What holds of a call between functions and carries over along calls holds along all of them. -/
theorem rel_of_calls {R : Definition → Definition → Prop} [IsTrans Definition R]
    (step : ∀ d ∈ t.functions, ∀ body, d.body = some body → ∀ e ∈ body.calls t, R d e)
    {d e : Definition} (calls : Relation.TransGen t.Calls d e) : R d e := by
  have each : t.Calls ≤ R := by
    rintro d e ⟨hd, body, written, he⟩
    exact step d hd body written e he
  exact Relation.transGen_minimal each d e calls

/-- A table is without recursion if every function has a higher rank than those that it calls. -/
theorem isAcyclic_of_rank (rank : Definition → Nat)
    (falls : ∀ d ∈ t.functions, ∀ body, d.body = some body → ∀ e ∈ body.calls t, rank e < rank d) :
    t.IsAcyclic := by
  have : IsTrans Definition fun d e => rank e < rank d := ⟨fun _ _ _ first later => later.trans first⟩
  intro d cycle
  exact Nat.lt_irrefl _ (rel_of_calls falls cycle)

/-! ## Chains of calls -/

/-- Without recursion, no function stands twice in a chain of calls. -/
theorem IsCallChain.nodup (acyclic : t.IsAcyclic) {c : List Definition} (h : t.IsCallChain c) :
    c.Nodup := by
  have reach : c.IsChain (Relation.TransGen t.Calls) := h.2.imp fun _ _ call => .single call
  refine (List.isChain_iff_pairwise.1 reach).imp ?_
  rintro d e call rfl
  exact acyclic d call

theorem IsCallChain.length_le (acyclic : t.IsAcyclic) {c : List Definition}
    (h : t.IsCallChain c) : c.length ≤ t.functions.length :=
  ((h.nodup acyclic).subperm h.1).length_le

/-- Without recursion, there is a longest chain of calls. -/
theorem exists_longest_chain (acyclic : t.IsAcyclic) :
    ∃ depth, IsGreatest {n | ∃ c, t.IsCallChain c ∧ c.length = n} depth := by
  have empty : t.IsCallChain [] := ⟨by simp, .nil⟩
  have bounded : BddAbove {n | ∃ c, t.IsCallChain c ∧ c.length = n} := by
    refine ⟨t.functions.length, ?_⟩
    rintro n ⟨c, chain, rfl⟩
    exact chain.length_le acyclic
  exact ⟨_, Nat.sSup_mem ⟨0, [], empty, rfl⟩ bounded, fun n hn => le_csSup bounded hn⟩

end SymbolTable

namespace Inference

variable {t : SymbolTable}

/-- A definition is settled a round after all functions that its body calls. -/
theorem stage_eq_of_calls (h : t.Sound) {n : Nat} {d : Definition}
    (callees : ∀ body, d.body = some body → ∀ e ∈ body.calls t, stage t (n + 1) e = stage t n e) :
    stage t (n + 2) d = stage t (n + 1) d := by
  rw [stage_succ, stage_succ]
  apply refine_congr
  intro body written m hm
  rw [callee?_iterate h, callee?_iterate h]
  cases callee : m.callee? t with
  | none => rfl
  | some e =>
    simp only [Option.map_some, Option.some.injEq]
    cases builtin : e.isBuiltin with
    | true => rw [stage_of_isBuiltin t _ builtin, stage_of_isBuiltin t _ builtin]
    | false =>
      apply callees body written
      apply List.mem_filter.2
      exact ⟨List.mem_filterMap.2 ⟨m, hm, callee⟩, by simp [builtin]⟩

/-- From round `k` on a function does not change, if all chains of calls that start with it have at
most `k` functions. -/
theorem stage_eq_of_chains (h : t.Sound) {k : Nat} {d : Definition} (hd : d ∈ t.functions)
    (short : ∀ c, t.IsCallChain (d :: c) → (d :: c).length ≤ k) {n : Nat} (late : k ≤ n) :
    stage t (n + 1) d = stage t n d := by
  induction k generalizing d n with
  | zero =>
    have alone : t.IsCallChain [d] := ⟨by simpa using hd, .singleton d⟩
    have := short [] alone
    simp at this
  | succ k ih =>
    obtain ⟨n, rfl⟩ : ∃ m, n = m + 1 := ⟨n - 1, by omega⟩
    apply stage_eq_of_calls h
    intro body written e he
    have member := h.mem_functions_of_calls he
    apply ih member
    · -- A chain from the callee is a chain from the function, one shorter.
      intro c chain
      have longer : t.IsCallChain (d :: e :: c) := by
        refine ⟨List.forall_mem_cons.2 ⟨hd, chain.1⟩, List.isChain_cons_cons.2 ⟨?_, chain.2⟩⟩
        exact ⟨hd, body, written, he⟩
      have bound := short (e :: c) longer
      simp only [List.length_cons] at bound ⊢
      omega
    · omega

/-- Inference over a program without recursion: if the longest chain of calls has `depth` functions,
then `depth` rounds settle every type, and inference with a higher limit finds that out within one
round more. -/
theorem infer_acyclic {forms : List Node} (build : SymbolTable.ofForms forms = .ok t)
    (acyclic : t.IsAcyclic) :
    ∃ depth, IsGreatest {n | ∃ c, t.IsCallChain c ∧ c.length = n} depth ∧
      (round (round^[depth] t)).sameTypes (round^[depth] t) = true ∧
      ∀ max : Int, (depth : Int) + 1 ≤ max →
        (infer t max).converged = true ∧ (infer t max).rounds ≤ depth + 1 ∧
          (infer t max).table = round^[depth] t := by
  have sound := SymbolTable.sound_ofForms build
  obtain ⟨depth, longest⟩ := SymbolTable.exists_longest_chain acyclic
  have stable : round (round^[depth] t) = round^[depth] t := by
    apply round_of_stage_eq sound
    intro d hd
    apply stage_eq_of_chains sound hd
    · exact fun c chain => longest.2 ⟨d :: c, chain, rfl⟩
    · exact Nat.le_refl depth
  obtain ⟨rounds, bound, ran⟩ := infer_of_stable sound stable
  refine ⟨depth, longest, ?_, ?_⟩
  · exact (sameTypes_round_iff (sound_iterate sound depth)).2 stable
  · intro max enough
    rw [ran max enough]
    exact ⟨rfl, bound, rfl⟩

open Sample

/-- Two functions, the first of which calls the second twice. -/
def chainForms : List Node :=
  [defun "twice" ["y"] (form [name "inc", form [name "inc", name "y"]]),
   defun "inc" ["x"] (form [name "+", name "x", .int 1 here])]

theorem infer_acyclic_chain : ∃ t, SymbolTable.ofForms chainForms = .ok t ∧ t.IsAcyclic ∧
    ∃ depth, IsGreatest {n | ∃ c, t.IsCallChain c ∧ c.length = n} depth ∧
      (infer t 20).converged = true ∧ (infer t 20).table = round^[depth] t := by
  obtain ⟨t, build, checked⟩ : ∃ t, SymbolTable.ofForms chainForms = .ok t ∧
      (decide (t.functions.length = 2) && t.functions.all fun d => d.body.all fun body =>
        (body.calls t).all fun e => decide (e.name.length < d.name.length)) = true :=
    exists_eq_ok (by decide +kernel)
  simp only [Bool.and_eq_true, decide_eq_true_eq, List.all_eq_true, Option.all_eq_true] at checked
  obtain ⟨two, falls⟩ := checked
  have acyclic : t.IsAcyclic := SymbolTable.isAcyclic_of_rank (·.name.length) falls
  obtain ⟨depth, longest, -, converges⟩ := infer_acyclic build acyclic
  obtain ⟨c, chain, rfl⟩ := longest.1
  have short := chain.length_le acyclic
  obtain ⟨converged, -, table⟩ := converges 20 (by omega)
  exact ⟨t, build, acyclic, _, longest, converged, table⟩

end Inference

end LittleLisp
