import LittleLisp.Proofs.SymbolTable.Sound
import LittleLisp.Proofs.Tree.Induction
import Mathlib.Logic.Function.Iterate

/-!
# Rounds of inference

A round refines every definition with the table before it, and what a definition becomes does not
depend on the types that it had. So after `n + 1` rounds a definition is the one of the first table,
refined once with the table after `n` rounds: `stage` says this, and `get?_iterate` and
`functions_iterate` say that tables are read through it. Nothing else about rounds is opened later.

Inference stops at the first round that changes nothing. If the table after `n` rounds is stable,
then every limit above `n` is enough, and the result is that table (`infer_of_stable`).
-/

namespace LittleLisp

/-! ## Trees and the definitions that they call -/

namespace Node

/-- The definition that a tree calls. -/
def callee? (t : SymbolTable) : Node → Option Definition
  | .call (.ident name _ :: _) _ => t.lookup name
  | _ => none

/-- What follows the head of a form. -/
def args : Node → List Node
  | .call (_ :: rest) _ => rest
  | _ => []

theorem callee?_of_headless {t : SymbolTable} {members : List Node} (l : Location)
    (headless : head? members = none) : (call members l).callee? t = none := by
  unfold callee?
  split
  · next shape =>
    obtain ⟨rfl, -⟩ := call.inj shape
    cases headless
  · rfl

theorem self_mem_walk (n : Node) : n ∈ n.walk := by
  cases n with
  | call | int | char | str | ident | cond => simp [walk]

theorem mem_walk_call {n m : Node} {members : List Node} (l : Location) (hn : n ∈ members)
    (hm : m ∈ n.walk) : m ∈ (call members l).walk := by
  simp only [walk, walkAll_eq, List.mem_cons, List.mem_flatMap]
  exact .inr ⟨n, hn, hm⟩

theorem mem_walk_cond {c : Node × Node} {m : Node} {clauses : List (Node × Node)} (l : Location)
    (hc : c ∈ clauses) (hm : m ∈ c.1.walk ∨ m ∈ c.2.walk) : m ∈ (cond clauses l).walk := by
  suffices inside : m ∈ walkClauses clauses by
    simp only [walk, List.mem_cons]
    exact .inr inside
  induction clauses with
  | nil => cases hc
  | cons first rest ih =>
    simp only [walkClauses, List.mem_append]
    rcases List.mem_cons.1 hc with rfl | hc
    · rcases hm with hm | hm
      · exact .inl hm
      · exact .inr (.inl hm)
    · exact .inr (.inr (ih hc))

end Node

namespace Inference

open SymbolTable (Sound)

/-! ## What refinement reads of a table -/

/-- A tree says of its arguments what the parameters of its callee say. -/
theorem usesOfNode_eq (t : SymbolTable) (n : Node) :
    usesOfNode t n = ((n.callee? t).map (·.params)).elim [] (usesOfArgs n.args) := by
  cases n with
  | int | char | str | ident | cond => rfl
  | call members l =>
    cases members with
    | nil => rfl
    | cons first args =>
      cases first with
      | int | char | str | call | cond => rfl
      | ident name at_ =>
        simp only [usesOfNode, Node.callee?]
        cases t.lookup name with
        | none => rfl
        | some d => rfl

theorem uses_congr {t u : SymbolTable} {body : Node}
    (same : ∀ n ∈ body.walk, (n.callee? t).map (·.params) = (n.callee? u).map (·.params)) :
    uses t body = uses u body := by
  have each : ∀ n ∈ body.walk, usesOfNode t n = usesOfNode u n := by
    intro n hn
    rw [usesOfNode_eq, usesOfNode_eq, same n hn]
  rw [uses, uses, List.flatMap_def, List.flatMap_def, List.map_congr_left each]

theorem deriveAll_eq (t : SymbolTable) (d : Definition) (ns : List Node) :
    deriveAll t d ns = ns.map (derive t d) := by
  induction ns with
  | nil => rfl
  | cons n rest ih => rw [deriveAll, ih, List.map_cons]

/-- What refinement reads of a definition that is called. -/
def face (d : Definition) : List Param × ValueType × Option Builtin :=
  (d.params, d.ret, d.operator)

/-- The type of an expression depends on the definitions that it calls and on the parameters around
it. -/
theorem derive_congr {t u : SymbolTable} {d e : Definition} (params : d.params = e.params)
    {n : Node} (same : ∀ m ∈ n.walk, (m.callee? t).map face = (m.callee? u).map face) :
    derive t d n = derive u e n := by
  induction n using Node.induction with
  | int | char | str => rfl
  | ident name l => simp only [derive, Definition.paramType?, params]
  | call members l ih =>
    have each (n : Node) (hn : n ∈ members) : derive t d n = derive u e n :=
      ih n hn fun m hm => same m (Node.mem_walk_call l hn hm)
    cases members with
    | nil => rfl
    | cons first args =>
      cases first with
      | ident name at_ =>
        have callee : (t.lookup name).map face = (u.lookup name).map face :=
          same _ (Node.self_mem_walk _)
        have types : deriveAll t d args = deriveAll u e args := by
          rw [deriveAll_eq, deriveAll_eq]
          exact List.map_congr_left fun n hn => each n (List.mem_cons_of_mem _ hn)
        simp only [derive, types]
        cases found : t.lookup name with
        | none =>
          rw [found, Option.map_none, eq_comm, Option.map_eq_none_iff] at callee
          rw [callee]
        | some g =>
          rw [found, Option.map_some, eq_comm, Option.map_eq_some_iff] at callee
          obtain ⟨h, found', faces⟩ := callee
          simp only [face, Prod.mk.injEq] at faces
          simp only [found', faces]
      | int | char | str | call | cond => rfl
  | cond clauses l ih =>
    have each (c : Node × Node) (hc : c ∈ clauses) : derive t d c.2 = derive u e c.2 :=
      (ih c hc).2 fun m hm => same m (Node.mem_walk_cond l hc (.inr hm))
    clear ih same
    simp only [derive]
    induction clauses with
    | nil => rfl
    | cons c rest ih =>
      obtain ⟨first, later⟩ := List.forall_mem_cons.1 each
      simp only [deriveClauses, first, ih later]

/-- Two tables refine a definition alike if they agree on all that its body calls. -/
theorem refine_congr {t u : SymbolTable} {d : Definition}
    (same : ∀ body, d.body = some body → ∀ n ∈ body.walk, n.callee? t = n.callee? u) :
    refine t d = refine u d := by
  unfold refine
  split
  · rfl
  · next body written =>
    have callees := same body written
    have params : refineParams t body d.params = refineParams u body d.params := by
      simp only [refineParams, uses_congr fun n hn => congrArg _ (callees n hn)]
    simp only [params, derive_congr rfl fun n hn => congrArg _ (callees n hn)]

/-- Refinement does not look at the types that a definition has. -/
theorem refine_refine (t u : SymbolTable) (d : Definition) : refine t (refine u d) = refine t d := by
  unfold refine
  cases written : d.body with
  | none => simp only [written]
  | some body =>
    have params : refineParams t body (refineParams u body d.params) =
        refineParams t body d.params := by
      simp [refineParams, Function.comp_def]
    simp only [params]
    congr 1
    apply derive_congr
    · rfl
    · exact fun _ _ => rfl

theorem refine_of_isBuiltin (t : SymbolTable) {d : Definition} (builtin : d.isBuiltin = true) :
    refine t d = d := by
  have none : d.body = none := by simpa [Definition.isBuiltin] using builtin
  unfold refine
  simp only [none]

/-! ## Definitions after some rounds -/

/-- A definition of a table after so many rounds from that table. -/
def stage (t : SymbolTable) : Nat → Definition → Definition
  | 0, d => d
  | n + 1, d => refine (round^[n] t) d

@[simp] theorem stage_zero (t : SymbolTable) (d : Definition) : stage t 0 d = d := rfl

theorem stage_succ (t : SymbolTable) (n : Nat) (d : Definition) :
    stage t (n + 1) d = refine (round^[n] t) d := rfl

theorem refine_stage (t : SymbolTable) (n : Nat) (d : Definition) :
    refine (round^[n] t) (stage t n d) = stage t (n + 1) d := by
  cases n with
  | zero => rfl
  | succ n => rw [stage_succ, refine_refine, stage_succ]

@[simp] theorem stage_name (t : SymbolTable) (n : Nat) (d : Definition) :
    (stage t n d).name = d.name := by
  cases n with
  | zero => rfl
  | succ n => exact refine_name _ d

@[simp] theorem stage_body (t : SymbolTable) (n : Nat) (d : Definition) :
    (stage t n d).body = d.body := by
  cases n with
  | zero => rfl
  | succ n => exact refine_body _ d

@[simp] theorem stage_isBuiltin (t : SymbolTable) (n : Nat) (d : Definition) :
    (stage t n d).isBuiltin = d.isBuiltin := by
  rw [Definition.isBuiltin, stage_body, Definition.isBuiltin]

theorem stage_of_isBuiltin (t : SymbolTable) (n : Nat) {d : Definition}
    (builtin : d.isBuiltin = true) : stage t n d = d := by
  cases n with
  | zero => rfl
  | succ n => exact refine_of_isBuiltin _ builtin

/-- Definitions differ between rounds in the types of their parameters and results alone. -/
theorem stage_eq_stage {t : SymbolTable} {n m : Nat} {d : Definition}
    (params : (stage t n d).params = (stage t m d).params)
    (ret : (stage t n d).ret = (stage t m d).ret) : stage t n d = stage t m d := by
  have rest (k : Nat) : stage t k d =
      { d with params := (stage t k d).params, ret := (stage t k d).ret } := by
    cases k with
    | zero => rfl
    | succ k =>
      simp only [stage_succ, refine]
      split <;> rfl
  rw [rest n, rest m, params, ret]

/-! ## Tables after some rounds -/

variable {t : SymbolTable}

theorem sound_iterate (h : t.Sound) (n : Nat) : (round^[n] t).Sound := by
  induction n with
  | zero => exact h
  | succ n ih =>
    rw [Function.iterate_succ_apply']
    exact sound_round ih

theorem isBuiltin_of_not_listed (h : t.Sound) {e : SymbolTable.Entry} (he : e ∈ t.entries)
    (not_listed : e.listed = false) : e.definition.isBuiltin = true := by
  obtain ⟨op, -, is_op⟩ := h.library e he not_listed
  rw [is_op]
  rfl

/-- An entry with its definition at a stage. -/
def stageEntry (t : SymbolTable) (n : Nat) (e : SymbolTable.Entry) : SymbolTable.Entry :=
  { e with definition := stage t n e.definition }

/-- After some rounds every entry is at that stage: what is not listed does not change when it is
refined. -/
theorem entries_iterate (h : t.Sound) (n : Nat) :
    (round^[n] t).entries = t.entries.map (stageEntry t n) := by
  induction n with
  | zero => exact (List.map_id _).symm
  | succ n ih =>
    rw [Function.iterate_succ_apply', round, ih, List.map_map]
    apply List.map_congr_left
    intro e he
    simp only [Function.comp_apply]
    split
    · simp only [stageEntry, refine_stage]
    · next not_listed =>
      have skipped : e.listed = false := by simpa [stageEntry] using not_listed
      have builtin := isBuiltin_of_not_listed h he skipped
      simp only [stageEntry, stage_of_isBuiltin t _ builtin]

/-- The table after some rounds has the definitions of the first table at that stage. -/
theorem get?_iterate (h : t.Sound) (n : Nat) (name : String) :
    (round^[n] t).get? name = (t.get? name).map (stage t n) := by
  have names : (fun e : SymbolTable.Entry => e.name == name) ∘ stageEntry t n =
      fun e => e.name == name := by
    funext e
    simp [stageEntry, SymbolTable.Entry.name]
  rw [SymbolTable.get?, entries_iterate h, List.find?_map, names, SymbolTable.get?, Option.map_map,
    Option.map_map]
  rfl

theorem lookup_iterate (h : t.Sound) (n : Nat) (name : String) :
    (round^[n] t).lookup name = (t.lookup name).map (stage t n) :=
  get?_iterate h n _

theorem callee?_iterate (h : t.Sound) (n : Nat) (m : Node) :
    m.callee? (round^[n] t) = (m.callee? t).map (stage t n) := by
  unfold Node.callee?
  split
  · exact lookup_iterate h n _
  · rfl

theorem functions_iterate (h : t.Sound) (n : Nat) :
    (round^[n] t).functions = t.functions.map (stage t n) := by
  rw [SymbolTable.functions, entries_iterate h, List.filter_map, SymbolTable.functions, List.map_map,
    List.map_map]
  rfl

/-! ## Stable tables -/

/-- Two tables are the same if every function is at the same stage in both. -/
theorem iterate_eq_iterate (h : t.Sound) {n m : Nat}
    (same : ∀ d ∈ t.functions, stage t n d = stage t m d) : round^[n] t = round^[m] t := by
  have entries : (round^[n] t).entries = (round^[m] t).entries := by
    rw [entries_iterate h, entries_iterate h]
    apply List.map_congr_left
    intro e he
    cases listed : e.listed with
    | true =>
      have function : e.definition ∈ t.functions :=
        List.mem_map_of_mem (List.mem_filter.2 ⟨he, listed⟩)
      rw [stageEntry, same _ function, stageEntry]
    | false =>
      have builtin := isBuiltin_of_not_listed h he listed
      rw [stageEntry, stage_of_isBuiltin t n builtin, stageEntry, stage_of_isBuiltin t m builtin]
  exact congrArg SymbolTable.mk entries

/-- If no function changes from one stage to the next, the table does not. -/
theorem round_of_stage_eq (h : t.Sound) {n : Nat}
    (same : ∀ d ∈ t.functions, stage t (n + 1) d = stage t n d) :
    round (round^[n] t) = round^[n] t := by
  rw [← Function.iterate_succ_apply' round]
  exact iterate_eq_iterate h same

/-- Tables that give the same types to all names, after whatever rounds, are the same. -/
theorem sameTypes_iterate_iff (h : t.Sound) {n m : Nat} :
    (round^[n] t).sameTypes (round^[m] t) = true ↔ round^[n] t = round^[m] t := by
  constructor
  · intro same
    simp only [SymbolTable.sameTypes, Bool.and_eq_true, List.all_eq_true] at same
    apply iterate_eq_iterate h
    intro d hd
    obtain ⟨e, he, rfl⟩ := List.mem_map.1 hd
    obtain ⟨he, -⟩ := List.mem_filter.1 he
    have staged : stageEntry t n e ∈ (round^[n] t).entries := by
      rw [entries_iterate h]
      exact List.mem_map_of_mem he
    have name : (stageEntry t n e).name = e.name := stage_name t n e.definition
    have types := same.2 _ staged
    rw [name, get?_iterate h, h.get?_of_mem he] at types
    simp only [Option.map_some, Definition.sameTypes, Bool.and_eq_true, beq_iff_eq] at types
    exact stage_eq_stage types.2 types.1
  · intro same
    rw [same]
    simp only [SymbolTable.sameTypes, Bool.and_eq_true, List.all_eq_true, beq_self_eq_true, true_and]
    intro e he
    rw [(sound_iterate h m).get?_of_mem he]
    simp [Definition.sameTypes]

/-- The test that ends inference tells whether the round changed the table. -/
theorem sameTypes_round_iff (h : t.Sound) : (round t).sameTypes t = true ↔ round t = t :=
  sameTypes_iterate_iff h (n := 1) (m := 0)

/-! ## Runs -/

/-- A run ends in the table after all rounds that it had left: if it ends earlier, then further
rounds would change nothing. -/
theorem table_run (h : t.Sound) (done left : Nat) : (run t done left).table = round^[left] t := by
  induction left generalizing t done with
  | zero => rfl
  | succ left ih =>
    rw [run]
    split
    · next same =>
      have stable := (sameTypes_round_iff h).1 same
      rw [Function.iterate_fixed stable, stable]
    · rw [ih (sound_round h), Function.iterate_succ_apply]

theorem table_infer (h : t.Sound) {max : Int} (positive : 0 < max) :
    (infer t max).table = round^[max.toNat] t := by
  rw [infer, limitOf, if_neg (by omega), table_run h]

/-- A run converges if one of the tables that it goes through is stable. -/
theorem converged_run_iff (h : t.Sound) (done left : Nat) :
    (run t done left).converged = true ↔ ∃ n, n < left ∧ round (round^[n] t) = round^[n] t := by
  induction left generalizing t done with
  | zero => simp [run]
  | succ left ih =>
    rw [run]
    split
    · next same =>
      have stable := (sameTypes_round_iff h).1 same
      exact iff_of_true rfl ⟨0, by omega, stable⟩
    · next differ =>
      rw [ih (sound_round h)]
      constructor
      · rintro ⟨n, lt, stable⟩
        exact ⟨n + 1, by omega, stable⟩
      · rintro ⟨n, lt, stable⟩
        cases n with
        | zero => exact absurd ((sameTypes_round_iff h).2 stable) differ
        | succ n => exact ⟨n, by omega, stable⟩

/-- A table that inference converges to is the one after any number of rounds from some number on. -/
theorem exists_iterate_of_converged (h : t.Sound) {max : Int}
    (converged : (infer t max).converged = true) (late : Nat) :
    ∃ n, late ≤ n ∧ (infer t max).table = round^[n] t := by
  obtain ⟨k, before, stable⟩ := (converged_run_iff h 0 (limitOf max)).1 converged
  have fixed (n : Nat) (hn : k ≤ n) : round^[n] t = round^[k] t := by
    obtain ⟨m, rfl⟩ := Nat.exists_eq_add_of_le' hn
    rw [Function.iterate_add_apply]
    exact Function.iterate_fixed stable m
  refine ⟨k + late, by omega, ?_⟩
  rw [infer, table_run h, fixed (k + late) (by omega), fixed _ (by omega)]

/-- A run that has more rounds left than it takes for the table to be stable ends in the stable
table, after the same number of rounds however many are left. -/
theorem run_of_stable (h : t.Sound) {n : Nat} (stable : round (round^[n] t) = round^[n] t)
    (done : Nat) :
    ∃ rounds, rounds ≤ done + n + 1 ∧
      ∀ left, n < left → run t done left = ⟨round^[n] t, rounds, true⟩ := by
  induction n generalizing t done with
  | zero =>
    have same : round t = t := stable
    refine ⟨done + 1, by omega, ?_⟩
    intro left enough
    obtain ⟨left, rfl⟩ : ∃ k, left = k + 1 := ⟨left - 1, by omega⟩
    rw [run, if_pos ((sameTypes_round_iff h).2 same), same]
    rfl
  | succ n ih =>
    by_cases same : round t = t
    · refine ⟨done + 1, by omega, ?_⟩
      intro left enough
      obtain ⟨left, rfl⟩ : ∃ k, left = k + 1 := ⟨left - 1, by omega⟩
      rw [run, if_pos ((sameTypes_round_iff h).2 same), same, Function.iterate_fixed same]
    · rw [Function.iterate_succ_apply] at stable
      obtain ⟨rounds, bound, ran⟩ := ih (sound_round h) stable (done + 1)
      refine ⟨rounds, by omega, ?_⟩
      intro left enough
      obtain ⟨left, rfl⟩ : ∃ k, left = k + 1 := ⟨left - 1, by omega⟩
      rw [run, if_neg fun test => same ((sameTypes_round_iff h).1 test), ran left (by omega),
        Function.iterate_succ_apply]

/-- A limit above the number of rounds that make the table stable is enough: inference ends with the
stable table, and after the same number of rounds whatever the limit is. -/
theorem infer_of_stable (h : t.Sound) {n : Nat} (stable : round (round^[n] t) = round^[n] t) :
    ∃ rounds, rounds ≤ n + 1 ∧
      ∀ max : Int, (n : Int) + 1 ≤ max → infer t max = ⟨round^[n] t, rounds, true⟩ := by
  obtain ⟨rounds, bound, ran⟩ := run_of_stable h stable 0
  refine ⟨rounds, by omega, ?_⟩
  intro max enough
  rw [infer, limitOf, if_neg (by omega)]
  exact ran max.toNat (by omega)

end Inference

/-! ## Sample programs -/

namespace Sample

/-- Where everything in a sample program stands. -/
def here : Location :=
  ⟨"sample", 1, 1, 1, none⟩

def name (text : String) : Node :=
  .ident text here

def form (members : List Node) : Node :=
  .call members here

/-- The form that defines a function. -/
def defun (function : String) (params : List String) (body : Node) : Node :=
  form [name "defun", name function, form (params.map name), body]

end Sample

end LittleLisp
