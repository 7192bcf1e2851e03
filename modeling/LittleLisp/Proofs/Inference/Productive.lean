import LittleLisp.Proofs.Inference.DirectRecursion
import Mathlib.Order.CompletePartialOrder
import Mathlib.Order.Monotone.Basic

/-!
# Functions that never give a value

The result of a function is `nothing` before the first round. A round makes it something else if one
of the function's results is a value of its own (`Node.GivesValue`), or a call of a function whose
result was something else before. Types of parameters play no part in this, because no parameter ever
is `nothing`. So while what the result is may change back and forth, that it is something never does
(`ret_ne_nothing_succ`), and after as many rounds as there are functions the functions whose result is
`nothing` are those from which no chain of calls in result position leads to a value
(`ret_eq_nothing_iff`).
-/

namespace LittleLisp

namespace Node

/-- A result is a value whatever the functions of the program give: it is a constant, an identifier,
or a call that calls no such function. -/
inductive GivesValue (t : SymbolTable) : Node → Prop where
  | int (value : Int) (l : Location) : GivesValue t (.int value l)
  | char (value : Char) (l : Location) : GivesValue t (.char value l)
  | str (value : String) (l : Location) : GivesValue t (.str value l)
  | ident (name : String) (l : Location) : GivesValue t (.ident name l)
  | headless {members : List Node} (l : Location) (headless : head? members = none) :
    GivesValue t (.call members l)
  | operator {name : String} {d : Definition} (at_ : Location) (args : List Node) (l : Location)
    (found : t.lookup name = some d) (builtin : d.isBuiltin = true) :
    GivesValue t (.call (.ident name at_ :: args) l)
  | unknown {name : String} (at_ : Location) (args : List Node) (l : Location)
    (missing : t.lookup name = none) : GivesValue t (.call (.ident name at_ :: args) l)

theorem GivesValue.callee_cases {t : SymbolTable} (h : t.Sound) {m : Node} (value : m.GivesValue t) :
    m.callee? t = none ∨ ∃ op ∈ Builtin.library, m.callee? t = some (Definition.ofBuiltin op) := by
  cases value with
  | int | char | str | ident => exact .inl rfl
  | headless l headless => exact .inl (callee?_of_headless l headless)
  | unknown at_ args l missing => exact .inl missing
  | operator at_ args l found builtin =>
    obtain ⟨op, hop, rfl⟩ := h.operator_of_lookup found builtin
    exact .inr ⟨op, hop, found⟩

/-- A conditional is not its own result. -/
theorem not_cond_of_mem_results {t : SymbolTable} {n m : Node} (h : m ∈ n.results t)
    (clauses : List (Node × Node)) (l : Location) : m ≠ .cond clauses l := by
  refine mem_results_induction (motive := fun _ => m ≠ .cond clauses l) ?_ ?_ ?_ h
  · exact fun other _ => other clauses l
  · exact fun _ _ _ _ other => other
  · exact fun _ _ _ _ _ _ other => other.elim id id

/-- A result is a value of its own or a call of a function of the program. -/
theorem givesValue_or_calls {t : SymbolTable} (h : t.Sound) {n m : Node} (hm : m ∈ n.results t) :
    m.GivesValue t ∨ ∃ e ∈ t.functions, m.callee? t = some e := by
  cases m with
  | int | char | str | ident => exact .inl (by constructor)
  | cond clauses l => exact absurd rfl (not_cond_of_mem_results hm clauses l)
  | call members l =>
    cases members with
    | nil => exact .inl (.headless l rfl)
    | cons first args =>
      cases first with
      | int | char | str | call | cond => exact .inl (.headless l rfl)
      | ident name at_ =>
        cases found : t.lookup name with
        | none => exact .inl (.unknown at_ args l found)
        | some e =>
          cases builtin : e.isBuiltin with
          | true => exact .inl (.operator at_ args l found builtin)
          | false => exact .inr ⟨e, h.mem_functions_of_lookup found builtin, found⟩

end Node

namespace SymbolTable

/-- A function of the program has a result that is a value of its own. -/
def Produces (t : SymbolTable) (d : Definition) : Prop :=
  ∃ body, d.body = some body ∧ ∃ m ∈ body.results t, m.GivesValue t

end SymbolTable

namespace Inference

variable {t : SymbolTable}

/-! ## One round -/

theorem ret_ne_nothing_of_library : ∀ op ∈ Builtin.library, op.ret ≠ .nothing := by
  decide

/-- A value of its own is never `nothing`. -/
theorem resultAt_ne_nothing (h : t.Sound) (new : ∀ d ∈ t.functions, d.IsNew) (n : Nat)
    {d : Definition} (hd : d ∈ t.functions) {m : Node} (value : m.GivesValue t) :
    resultAt t n d m ≠ .nothing := by
  rcases value.callee_cases h with unknown | ⟨op, hop, callee⟩
  · intro nothing
    have own := resultAt_of_callee?_eq_none h new n hd unknown
    rw [nothing] at own
    exact absurd own (by decide)
  · rw [resultAt_of_callee h n d callee, stage_ofBuiltin]
    exact ret_ne_nothing_of_library op hop

/-- A round makes the result of a function something if one of its results is a value of its own or
calls a function whose result was something before. -/
theorem ret_succ_ne_nothing_iff (h : t.Sound) (new : ∀ d ∈ t.functions, d.IsNew) (n : Nat)
    {d : Definition} (hd : d ∈ t.functions) :
    (stage t (n + 1) d).ret ≠ .nothing ↔
      t.Produces d ∨ ∃ e, t.Returns d e ∧ (stage t n e).ret ≠ .nothing := by
  obtain ⟨body, written⟩ := Option.isSome_iff_exists.1 (h.isFunction hd).body
  have nothing_iff : (stage t (n + 1) d).ret = .nothing ↔
      ∀ m ∈ body.results t, resultAt t n d m = .nothing := by
    simp only [← ValueType.le_nothing_iff, ret_le_iff h n written]
  constructor
  · intro something
    rw [Ne, nothing_iff] at something
    push Not at something
    obtain ⟨m, hm, something⟩ := something
    rcases Node.givesValue_or_calls h hm with value | ⟨e, he, callee⟩
    · exact .inl ⟨body, written, m, hm, value⟩
    · rw [resultAt_of_callee h n d callee] at something
      exact .inr ⟨e, returns_of_mem h hd written hm callee he, something⟩
  · rintro (⟨same, written', m, hm, value⟩ | ⟨e, returns, something⟩) nothing
    · obtain rfl := Option.some.inj (written.symm.trans written')
      exact resultAt_ne_nothing h new n hd value (nothing_iff.1 nothing m hm)
    · obtain ⟨m, hm, callee⟩ := exists_result_of_returns returns written
      apply something
      rw [← resultAt_of_callee h n d callee]
      exact nothing_iff.1 nothing m hm

/-! ## Many rounds -/

/-- What is something stays something, though it may become something else. -/
theorem ret_ne_nothing_succ (h : t.Sound) (new : ∀ d ∈ t.functions, d.IsNew) (n : Nat)
    {d : Definition} (hd : d ∈ t.functions) (something : (stage t n d).ret ≠ .nothing) :
    (stage t (n + 1) d).ret ≠ .nothing := by
  induction n generalizing d with
  | zero => exact absurd (new d hd).ret something
  | succ n ih =>
    rw [ret_succ_ne_nothing_iff h new (n + 1) hd]
    refine ((ret_succ_ne_nothing_iff h new n hd).1 something).imp_right ?_
    rintro ⟨e, returns, something⟩
    exact ⟨e, returns, ih (returns.mem_functions h) something⟩

theorem ret_ne_nothing_of_le (h : t.Sound) (new : ∀ d ∈ t.functions, d.IsNew) {n m : Nat}
    (le : n ≤ m) {d : Definition} (hd : d ∈ t.functions)
    (something : (stage t n d).ret ≠ .nothing) : (stage t m d).ret ≠ .nothing := by
  induction m, le using Nat.le_induction with
  | base => exact something
  | succ m _ ih => exact ret_ne_nothing_succ h new m hd ih

/-- A result that is something comes from a value. -/
theorem exists_produces_of_ret (h : t.Sound) (new : ∀ d ∈ t.functions, d.IsNew) {n : Nat}
    {d : Definition} (hd : d ∈ t.functions) (something : (stage t n d).ret ≠ .nothing) :
    ∃ e ∈ t.reach d, t.Produces e := by
  induction n generalizing d with
  | zero => exact absurd (new d hd).ret something
  | succ n ih =>
    rcases (ret_succ_ne_nothing_iff h new n hd).1 something with value | ⟨e, returns, something⟩
    · exact ⟨d, Relation.ReflTransGen.refl, value⟩
    · obtain ⟨g, hg, value⟩ := ih (returns.mem_functions h) something
      exact ⟨g, Relation.ReflTransGen.head returns hg, value⟩

/-- A value comes back to all functions from which calls in result position lead to it. -/
theorem exists_ret_of_produces (h : t.Sound) (new : ∀ d ∈ t.functions, d.IsNew) {d e : Definition}
    (hd : d ∈ t.functions) (he : e ∈ t.reach d) (value : t.Produces e) :
    ∃ n, (stage t n d).ret ≠ .nothing := by
  induction he using Relation.ReflTransGen.head_induction_on with
  | refl => exact ⟨1, (ret_succ_ne_nothing_iff h new 0 hd).2 (.inl value)⟩
  | head first _ ih =>
    obtain ⟨n, something⟩ := ih (first.mem_functions h)
    exact ⟨n + 1, (ret_succ_ne_nothing_iff h new n hd).2 (.inr ⟨_, first, something⟩)⟩

/-- The functions whose result after some rounds is not `nothing`. -/
def giving (t : SymbolTable) (n : Nat) : Set Definition :=
  {d | d ∈ t.functions ∧ (stage t n d).ret ≠ .nothing}

theorem finite_giving (t : SymbolTable) (n : Nat) : (giving t n).Finite :=
  t.functions.finite_toSet.subset fun _ he => he.1

theorem giving_mono (h : t.Sound) (new : ∀ d ∈ t.functions, d.IsNew) : Monotone (giving t) := by
  rintro n m le d ⟨hd, something⟩
  exact ⟨hd, ret_ne_nothing_of_le h new le hd something⟩

/-- A round that makes no function give something is followed by no round that does. -/
theorem giving_succ (h : t.Sound) (new : ∀ d ∈ t.functions, d.IsNew) {n : Nat}
    (same : giving t n = giving t (n + 1)) : giving t (n + 1) = giving t (n + 2) := by
  apply (giving_mono h new (by omega)).antisymm
  rintro d ⟨hd, something⟩
  refine ⟨hd, (ret_succ_ne_nothing_iff h new n hd).2 ?_⟩
  refine ((ret_succ_ne_nothing_iff h new (n + 1) hd).1 something).imp_right ?_
  rintro ⟨e, returns, something⟩
  have before : e ∈ giving t n := same ▸ ⟨returns.mem_functions h, something⟩
  exact ⟨e, returns, before.2⟩

theorem giving_eq_of_ncard (h : t.Sound) (new : ∀ d ∈ t.functions, d.IsNew) {n m : Nat} (le : n ≤ m)
    (same : (giving t n).ncard = (giving t m).ncard) : giving t n = giving t m :=
  Set.eq_of_subset_of_ncard_le (giving_mono h new le) same.ge (finite_giving t m)

/-- After as many rounds as there are functions, all give something that ever will. -/
theorem giving_eq (h : t.Sound) (new : ∀ d ∈ t.functions, d.IsNew) {n : Nat}
    (late : t.functions.length ≤ n) : giving t t.functions.length = giving t n := by
  apply giving_eq_of_ncard h new late
  have grows : Monotone fun k => (giving t k).ncard :=
    fun k m le => Set.ncard_le_ncard (giving_mono h new le) (finite_giving t m)
  refine (Nat.stabilises_of_monotone grows ?_ ?_ late).symm
  · exact fun k => SymbolTable.ncard_le_of_functions fun _ he => he.1
  · intro k same
    exact congrArg Set.ncard (giving_succ h new (giving_eq_of_ncard h new (by omega) same))

theorem ret_ne_nothing_iff (h : t.Sound) (new : ∀ d ∈ t.functions, d.IsNew) {n : Nat}
    (late : t.functions.length ≤ n) {d : Definition} (hd : d ∈ t.functions) :
    (stage t n d).ret ≠ .nothing ↔ ∃ e ∈ t.reach d, t.Produces e := by
  constructor
  · exact exists_produces_of_ret h new hd
  · rintro ⟨e, he, value⟩
    obtain ⟨m, something⟩ := exists_ret_of_produces h new hd he value
    have later : d ∈ giving t (n + m) := ⟨hd, ret_ne_nothing_of_le h new (by omega) hd something⟩
    rw [← giving_eq h new (by omega), giving_eq h new late] at later
    exact later.2

/-! ## Chains of calls in the inferred table -/

theorem resultCalls_iterate (h : t.Sound) (n : Nat) (m : Node) :
    m.resultCalls (round^[n] t) = (m.resultCalls t).map (stage t n) := by
  have callee : Node.callee? (round^[n] t) = fun m => (m.callee? t).map (stage t n) := by
    funext m
    exact callee?_iterate h n m
  have builtin : (fun d => !d.isBuiltin) ∘ stage t n = fun d => !d.isBuiltin := by
    funext d
    rw [Function.comp_apply, stage_isBuiltin]
  rw [Node.resultCalls, results_iterate h, callee, ← List.map_filterMap, List.filter_map, builtin,
    Node.resultCalls]

/-- Rounds change what functions return but not whose results they return. -/
theorem returns_iterate (h : t.Sound) (n : Nat) {d : Definition} (hd : d ∈ t.functions)
    {f : Definition} :
    (round^[n] t).Returns (stage t n d) f ↔ ∃ e, t.Returns d e ∧ stage t n e = f := by
  have staged : stage t n d ∈ (round^[n] t).functions := by
    rw [functions_iterate h]
    exact List.mem_map_of_mem hd
  simp only [SymbolTable.Returns, stage_body, resultCalls_iterate h, List.mem_map, staged, hd,
    true_and]
  constructor
  · rintro ⟨body, written, e, he, rfl⟩
    exact ⟨e, ⟨body, written, he⟩, rfl⟩
  · rintro ⟨e, ⟨body, written, he⟩, rfl⟩
    exact ⟨body, written, e, he, rfl⟩

theorem reach_iterate (h : t.Sound) (n : Nat) {d : Definition} (hd : d ∈ t.functions) :
    (round^[n] t).reach (stage t n d) = stage t n '' t.reach d := by
  ext f
  constructor
  · intro hf
    induction hf with
    | refl => exact ⟨d, Relation.ReflTransGen.refl, rfl⟩
    | tail _ last ih =>
      obtain ⟨e, he, rfl⟩ := ih
      have member := SymbolTable.mem_functions_of_reach h hd he
      obtain ⟨g, returns, rfl⟩ := (returns_iterate h n member).1 last
      exact ⟨g, Relation.ReflTransGen.tail he returns, rfl⟩
  · rintro ⟨e, he, rfl⟩
    induction he with
    | refl => exact Relation.ReflTransGen.refl
    | tail before last ih =>
      have member := SymbolTable.mem_functions_of_reach h hd before
      exact Relation.ReflTransGen.tail ih ((returns_iterate h n member).2 ⟨_, last, rfl⟩)

theorem lookup_iterate_eq_none (h : t.Sound) (n : Nat) {name : String} :
    (round^[n] t).lookup name = none ↔ t.lookup name = none := by
  rw [lookup_iterate h, Option.map_eq_none_iff]

theorem givesValue_iterate (h : t.Sound) (n : Nat) {m : Node} :
    m.GivesValue (round^[n] t) ↔ m.GivesValue t := by
  constructor
  · intro value
    cases value with
    | int | char | str | ident => constructor
    | headless l headless => exact .headless l headless
    | operator at_ args l found builtin =>
      rw [lookup_iterate h] at found
      obtain ⟨d, known, rfl⟩ := Option.map_eq_some_iff.1 found
      exact .operator at_ args l known (stage_isBuiltin t n d ▸ builtin)
    | unknown at_ args l missing => exact .unknown at_ args l ((lookup_iterate_eq_none h n).1 missing)
  · intro value
    cases value with
    | int | char | str | ident => constructor
    | headless l headless => exact .headless l headless
    | @operator _ d at_ args l found builtin =>
      refine .operator (d := stage t n d) at_ args l ?_ (by rw [stage_isBuiltin, builtin])
      rw [lookup_iterate h, found, Option.map_some]
    | unknown at_ args l missing => exact .unknown at_ args l ((lookup_iterate_eq_none h n).2 missing)

theorem produces_iterate (h : t.Sound) (n : Nat) {d : Definition} :
    (round^[n] t).Produces (stage t n d) ↔ t.Produces d := by
  simp only [SymbolTable.Produces, stage_body, results_iterate h, givesValue_iterate h]

/-! ## Inferred tables -/

/-- In a table that inference has converged to, and in every table after as many rounds as there are
functions, a function's result is `nothing` if no chain of functions, each of which returns the result
of the next, leads from it to one that has a value of its own for a result. -/
theorem ret_eq_nothing_iff {forms : List Node} (build : SymbolTable.ofForms forms = .ok t)
    {u : SymbolTable}
    (inferred : (∃ max, (infer t max).converged = true ∧ (infer t max).table = u) ∨
      ∃ n, t.functions.length ≤ n ∧ round^[n] t = u)
    {f : Definition} (hf : f ∈ u.functions) :
    f.ret = .nothing ↔ ¬ ∃ e ∈ u.reach f, u.Produces e := by
  have sound := SymbolTable.sound_ofForms build
  have new := SymbolTable.isNew_ofForms build
  obtain ⟨n, late, rfl⟩ : ∃ n, t.functions.length ≤ n ∧ round^[n] t = u := by
    rcases inferred with ⟨max, converged, rfl⟩ | rounds
    · obtain ⟨n, late, table⟩ := exists_iterate_of_converged sound converged t.functions.length
      exact ⟨n, late, table.symm⟩
    · exact rounds
  rw [functions_iterate sound] at hf
  obtain ⟨d, hd, rfl⟩ := List.mem_map.1 hf
  rw [← not_iff_not, not_not, reach_iterate sound n hd, Set.exists_mem_image]
  simp only [produces_iterate sound]
  exact ret_ne_nothing_iff sound new late hd

open Sample

/-- Four functions: two return each other's results and nothing else, one returns theirs and its own,
and one returns a number in the end. -/
def loopForms : List Node :=
  [defun "left" ["x"] (form [name "right", name "x"]),
   defun "right" ["x"] (.cond [(name "x", form [name "left", name "x"])] here),
   defun "both" ["x"] (form [name "if", name "x", form [name "left", name "x"],
     form [name "both", name "x"]]),
   defun "count" ["x"] (form [name "if", name "x", form [name "count", name "x"], .int 0 here])]

/-- No chain leads from the third function to a value, because its result is `nothing`; one leads from
the fourth function to a value, because its result is an integer. -/
theorem ret_eq_nothing_iff_loop : ∃ t both count,
    SymbolTable.ofForms loopForms = .ok t ∧ (infer t 20).converged = true ∧
      both ∈ (infer t 20).table.functions ∧ both.name = "both" ∧
      (¬ ∃ e ∈ (infer t 20).table.reach both, (infer t 20).table.Produces e) ∧
      count ∈ (infer t 20).table.functions ∧ count.name = "count" ∧
      ∃ e ∈ (infer t 20).table.reach count, (infer t 20).table.Produces e := by
  obtain ⟨t, build, checked⟩ : ∃ t, SymbolTable.ofForms loopForms = .ok t ∧
      ((infer t 20).converged,
        (infer t 20).table.functions.map fun d => (d.name, d.ret)) =
          (true, [("left", .nothing), ("right", .nothing), ("both", .nothing),
            ("count", .integer)]) :=
    exists_eq_ok (by decide +kernel)
  obtain ⟨converged, rets⟩ := Prod.mk.inj checked
  have result (name : String) (ret : ValueType) (found : (name, ret) ∈
      (infer t 20).table.functions.map fun d => (d.name, d.ret)) :
      ∃ f ∈ (infer t 20).table.functions, f.name = name ∧
        (ret = .nothing ↔ ¬ ∃ e ∈ (infer t 20).table.reach f, (infer t 20).table.Produces e) := by
    obtain ⟨f, hf, same⟩ := List.mem_map.1 found
    obtain ⟨rfl, rfl⟩ := Prod.mk.inj same
    exact ⟨f, hf, rfl, ret_eq_nothing_iff build (.inl ⟨20, converged, rfl⟩) hf⟩
  obtain ⟨both, h_both, both_name, both_iff⟩ := result "both" .nothing (by simp [rets])
  obtain ⟨count, h_count, count_name, count_iff⟩ := result "count" .integer (by simp [rets])
  refine ⟨t, both, count, build, converged, h_both, both_name, both_iff.1 rfl, h_count, count_name, ?_⟩
  by_contra never
  exact absurd (count_iff.2 never) (by decide)

end Inference

end LittleLisp
