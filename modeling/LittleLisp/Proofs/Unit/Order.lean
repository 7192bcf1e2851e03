import LittleLisp.Proofs.Inference.Stage
import LittleLisp.Proofs.Lowering.Settings
import LittleLisp.Proofs.Lowering.Unit
import LittleLisp.Proofs.SymbolTable.Permutation

/-!
# The order of definitions

Tables of the same entries in another order look names up alike. Inference refines each function with
a whole table, validation checks each function with it and lowering turns each function into C with
it, and all of them read nothing of the table but what names stand for. So every stage does the same
to each function, and the order of functions is the order of their forms all the way through
(`ofForms_of_perm`).
-/

namespace LittleLisp

/-! ## Inference -/

namespace Inference

variable {t u : SymbolTable}

/-- Refinement reads nothing of a table but what names stand for. -/
theorem refine_of_lookup (names : t.lookup = u.lookup) : refine t = refine u := by
  funext d
  apply refine_congr
  intro body _ n _
  unfold Node.callee?
  split
  · rw [names]
  · rfl

theorem round_perm (h : t.Sound) (perm : t.entries.Perm u.entries) :
    (round t).entries.Perm (round u).entries := by
  simp only [round, refine_of_lookup (h.lookup_of_perm perm)]
  exact perm.map _

theorem iterate_perm (h : t.Sound) (perm : t.entries.Perm u.entries) (n : Nat) :
    (round^[n] t).entries.Perm (round^[n] u).entries := by
  induction n with
  | zero => exact perm
  | succ n ih =>
    rw [Function.iterate_succ_apply', Function.iterate_succ_apply']
    exact round_perm (sound_iterate h n) ih

theorem stage_of_perm (h : t.Sound) (perm : t.entries.Perm u.entries) (n : Nat) :
    stage t n = stage u n := by
  funext d
  cases n with
  | zero => rfl
  | succ n =>
    have names := (sound_iterate h n).lookup_of_perm (iterate_perm h perm n)
    rw [stage_succ, stage_succ, refine_of_lookup names]

/-- The test that ends inference does not depend on the order of entries. -/
theorem sameTypes_of_perm {next next' : SymbolTable} (h : t.Sound)
    (perm : t.entries.Perm u.entries) (perm_next : next.entries.Perm next'.entries) :
    next.sameTypes t = next'.sameTypes u := by
  rw [Bool.eq_iff_iff]
  simp only [SymbolTable.sameTypes, Bool.and_eq_true, List.all_eq_true, h.get?_of_perm perm,
    perm.length_eq, perm_next.length_eq, perm_next.mem_iff]

theorem run_of_perm (h : t.Sound) (perm : t.entries.Perm u.entries) (done left : Nat) :
    (run t done left).rounds = (run u done left).rounds ∧
      (run t done left).converged = (run u done left).converged := by
  induction left generalizing t u done with
  | zero => exact ⟨rfl, rfl⟩
  | succ left ih =>
    have next := round_perm h perm
    simp only [run, sameTypes_of_perm h perm next]
    split
    · exact ⟨rfl, rfl⟩
    · exact ih (sound_round h) next (done + 1)

end Inference

/-! ## Validation -/

namespace Validation

variable {t u : SymbolTable}

theorem callee_congr (names : t.lookup = u.lookup) : callee t = callee u := by
  funext members l
  simp only [callee, names]

theorem shallowTypes_congr (names : t.lookup = u.lookup) (args : List Node) :
    shallowTypes t args = shallowTypes u args := by
  have each (n : Node) : shallowType t n = shallowType u n := by
    cases n with
    | int | char | str | ident | cond => rfl
    | call members l => simp only [shallowType, callee_congr names]
  induction args with
  | nil => rfl
  | cons n rest ih => simp only [shallowTypes, each, ih]

theorem checkAll_congr {d : Definition} {ns : List Node}
    (each : ∀ n ∈ ns, checkNode t d n = checkNode u d n) : checkAll t d ns = checkAll u d ns := by
  induction ns with
  | nil => simp only [checkAll]
  | cons n rest ih =>
    obtain ⟨first, later⟩ := List.forall_mem_cons.1 each
    simp only [checkAll, first, ih later]

theorem checkNode_congr (names : t.lookup = u.lookup) (d : Definition) (n : Node) :
    checkNode t d n = checkNode u d n := by
  induction n using Node.induction with
  | int | char | str | ident => simp only [checkNode]
  | call members l ih =>
    have call : checkCall t members l = checkCall u members l := by
      simp only [checkCall, callee_congr names, shallowTypes_congr names]
    have args : checkArgs t d members = checkArgs u d members := by
      cases members with
      | nil => simp only [checkArgs]
      | cons first args =>
        simp only [checkArgs]
        exact checkAll_congr fun n hn => ih n (List.mem_cons_of_mem _ hn)
    simp only [checkNode, call, args]
  | cond clauses l ih =>
    simp only [checkNode]
    induction clauses with
    | nil => simp only [checkClauses]
    | cons c rest step =>
      obtain ⟨first, later⟩ := List.forall_mem_cons.1 ih
      simp only [checkClauses, first.1, first.2, step later]

/-- The check of a function reads nothing of a table but what names stand for. -/
theorem checkFunction_congr (names : t.lookup = u.lookup) (d : Definition) :
    checkFunction t d = checkFunction u d := by
  simp only [checkFunction, checkNode_congr names]

theorem validate_of_perm (h : t.Sound) (perm : t.entries.Perm u.entries)
    (valid : validate t = .ok ()) : validate u = .ok () := by
  apply checkFunctions_of_forall
  intro d hd
  rw [← checkFunction_congr (h.lookup_of_perm perm)]
  exact checkFunctions_eq_ok valid d ((SymbolTable.functions_perm perm).mem_iff.2 hd)

end Validation

/-! ## Lowering -/

namespace Lowering

variable {t u : SymbolTable} {s : Settings}

theorem function?_of_lookup (names : t.lookup = u.lookup) (d : Definition) :
    function? t s d = function? u s d :=
  function?_congr ⟨rfl, rfl, rfl⟩ names d

theorem exists_functions_of_perm (h : t.Sound) (perm : t.entries.Perm u.entries)
    (lowered : ∃ fs, functions t s = .ok fs) : ∃ fs, functions u s = .ok fs := by
  have functions := SymbolTable.functions_perm perm
  obtain ⟨each, distinct⟩ := (exists_functions_iff h).1 lowered
  refine (exists_functions_iff (h.of_perm perm)).2 ⟨?_, ?_⟩
  · intro d hd
    rw [← function?_of_lookup (h.lookup_of_perm perm)]
    exact each d (functions.mem_iff.2 hd)
  · exact (functions.map _).nodup distinct

section Lowered

variable {fs gs : List (Definition × C.Function)} {p q : Definition × C.Function}

theorem eq_of_definition_eq (names : t.lookup = u.lookup) (hf : functions t s = .ok fs)
    (hg : functions u s = .ok gs) (hp : p ∈ fs) (hq : q ∈ gs) (same : p.1 = q.1) : p = q := by
  have made := function?_of_functionsFrom hf p hp
  have made' := function?_of_functionsFrom hg q hq
  rw [function?_of_lookup names, same, made'] at made
  exact Prod.ext same (Option.some.inj (Except.ok.inj made)).symm

theorem definitions_eq (h : t.Sound) (hf : functions t s = .ok fs) : fs.map (·.1) = t.functions :=
  (functionsFrom_eq_ok h (fun _ hd => h.isFunction hd) hf).1

/-- Both tables are lowered to the same functions. -/
theorem mem_of_perm (h : t.Sound) (perm : t.entries.Perm u.entries) (hf : functions t s = .ok fs)
    (hg : functions u s = .ok gs) (hp : p ∈ fs) : p ∈ gs := by
  have member : p.1 ∈ gs.map (·.1) := by
    rw [definitions_eq (h.of_perm perm) hg, ← (SymbolTable.functions_perm perm).mem_iff,
      ← definitions_eq h hf]
    exact List.mem_map_of_mem hp
  obtain ⟨q, hq, same⟩ := List.mem_map.1 member
  rwa [eq_of_definition_eq (h.lookup_of_perm perm) hf hg hp hq same.symm]

theorem eq_of_name_eq (h : t.Sound) (perm : t.entries.Perm u.entries) (hf : functions t s = .ok fs)
    (hg : functions u s = .ok gs) (hp : p ∈ fs) (hq : q ∈ gs) (same : p.1.name = q.1.name) :
    p = q := by
  have hq' : q ∈ fs := mem_of_perm (h.of_perm perm) perm.symm hg hf hq
  have listed (r : Definition × C.Function) (hr : r ∈ fs) : r.1 ∈ t.functions := by
    rw [← definitions_eq h hf]
    exact List.mem_map_of_mem hr
  have definitions : p.1 = q.1 :=
    List.inj_on_of_nodup_map h.nodup_functions (listed p hp) (listed q hq') same
  exact eq_of_definition_eq (h.lookup_of_perm perm) hf hg hp hq definitions

end Lowered

end Lowering

/-! ## Units -/

namespace CompiledUnit

variable {forms forms' : List Node} {ds ds' : List Definition} {t t' : SymbolTable} {s : Settings}

/-- A form defines the same function wherever it stands. -/
theorem getElem?_of_read (read : Definition.Read forms ds) (i : Nat) :
    ds[i]? = forms[i]?.bind fun form => (Definition.ofForm form).toOption := by
  induction read generalizing i with
  | nil => rfl
  | cons first _ ih =>
    cases i with
    | zero => simp [first, Except.toOption]
    | succ i => exact ih i

/-- Functions are lowered in the order of their forms. -/
theorem getElem?_of_functions (read : Definition.Read forms ds)
    (distinct : (ds.map (·.name)).Nodup) (build : SymbolTable.ofForms forms = .ok t) {n : Nat}
    {fs : List (Definition × C.Function)}
    (lowers : Lowering.functions (Inference.round^[n] t) s = .ok fs) (i : Nat) :
    fs[i]?.map (·.1) = (forms[i]?.bind fun form => (Definition.ofForm form).toOption).map
      (Inference.stage t n) := by
  have sound := SymbolTable.sound_ofForms build
  have definitions := Lowering.definitions_eq (Inference.sound_iterate sound n) lowers
  rw [← List.getElem?_map, definitions, Inference.functions_iterate sound,
    SymbolTable.functions_of_distinct read distinct build, List.getElem?_map, getElem?_of_read read]

theorem exists_unit_of_perm (read : Definition.Read forms ds) (read' : Definition.Read forms' ds')
    (perm : ds.Perm ds') (distinct : (ds.map (·.name)).Nodup) {file : String}
    (compiled : ∃ u, (ofForms file forms s).result = .ok u) :
    ∃ u, (ofForms file forms' s).result = .ok u := by
  obtain ⟨u, compiled⟩ := compiled
  obtain ⟨plain, t, build, valid, fs, lowers, -⟩ := ofForms_eq_ok_iff.1 compiled
  have build' := SymbolTable.ofForms_of_distinct read' ((perm.map _).nodup distinct)
  have sound := SymbolTable.sound_ofForms build
  have sound' := SymbolTable.sound_ofForms build'
  have entries := SymbolTable.perm_of_distinct read read' perm distinct build build'
  simp only [Inference.infer, Inference.table_run sound] at valid lowers
  have rounds := Inference.iterate_perm sound entries (Inference.limitOf s.maxRounds)
  have sound_end := Inference.sound_iterate sound (Inference.limitOf s.maxRounds)
  obtain ⟨gs, lowers'⟩ := Lowering.exists_functions_of_perm sound_end rounds ⟨fs, lowers⟩
  have valid' := Validation.validate_of_perm sound_end rounds valid
  rw [← Inference.table_run sound' 0] at valid' lowers'
  exact ⟨_, ofForms_eq_ok_iff.2 ⟨plain, _, build', valid', gs, lowers', rfl⟩⟩

/-- The order in which functions of different names are defined does not matter. Either order
compiles or neither does; if they do, then inference takes as many rounds and converges or not alike,
every name has the same signature, both units have the same functions, one for each name, and the
functions of both units are in the order of their forms. -/
theorem ofForms_of_perm (perm : forms.Perm forms') (read : Definition.Read forms ds)
    (distinct : (ds.map (·.name)).Nodup) (file : String) (s : Settings) :
    ((∃ u, (ofForms file forms s).result = .ok u) ↔
      ∃ u, (ofForms file forms' s).result = .ok u) ∧
    ∀ u u', (ofForms file forms s).result = .ok u → (ofForms file forms' s).result = .ok u' →
      u.rounds = u'.rounds ∧ u.converged = u'.converged ∧
      (∀ name, u.table.signature? name = u'.table.signature? name) ∧
      (∀ p, p ∈ u.functions ↔ p ∈ u'.functions) ∧
      (∀ p ∈ u.functions, ∀ q ∈ u'.functions, p.1.name = q.1.name → p = q) ∧
      ∀ i j : Nat, forms[i]? = forms'[j]? → u.functions[i]? = u'.functions[j]? := by
  obtain ⟨ds', read', permuted⟩ := List.perm_comp_forall₂ perm.symm read
  have distinct' : (ds'.map (·.name)).Nodup := (permuted.symm.map _).nodup distinct
  refine ⟨⟨exists_unit_of_perm read read' permuted.symm distinct,
    exists_unit_of_perm read' read permuted distinct'⟩, ?_⟩
  intro u u' compiled compiled'
  obtain ⟨-, t, build, -, fs, lowers, rfl⟩ := ofForms_eq_ok_iff.1 compiled
  obtain ⟨-, t', build', -, gs, lowers', rfl⟩ := ofForms_eq_ok_iff.1 compiled'
  have sound := SymbolTable.sound_ofForms build
  have sound' := SymbolTable.sound_ofForms build'
  have entries := SymbolTable.perm_of_distinct read read' permuted.symm distinct build build'
  obtain ⟨rounds, converged⟩ := Inference.run_of_perm sound entries 0 (Inference.limitOf s.maxRounds)
  simp only [Inference.infer, Inference.table_run sound, Inference.table_run sound']
    at lowers lowers' ⊢
  have entries_end := Inference.iterate_perm sound entries (Inference.limitOf s.maxRounds)
  have sound_end := Inference.sound_iterate sound (Inference.limitOf s.maxRounds)
  have names := sound_end.lookup_of_perm entries_end
  refine ⟨rounds, converged, ?_, ?_, ?_, ?_⟩
  · intro name
    rw [SymbolTable.signature?, SymbolTable.signature?, names]
  · intro p
    exact ⟨Lowering.mem_of_perm sound_end entries_end lowers lowers',
      Lowering.mem_of_perm (sound_end.of_perm entries_end) entries_end.symm lowers' lowers⟩
  · intro p hp q hq same
    exact Lowering.eq_of_name_eq sound_end entries_end lowers lowers' hp hq same
  · intro i j same
    -- A form gives one definition, which is at the same stage in both tables.
    have definitions : fs[i]?.map (·.1) = gs[j]?.map (·.1) := by
      rw [getElem?_of_functions read distinct build lowers,
        getElem?_of_functions read' distinct' build' lowers', same,
        Inference.stage_of_perm sound entries]
    cases left : fs[i]? with
    | none =>
      rw [left, Option.map_none, eq_comm, Option.map_eq_none_iff] at definitions
      rw [definitions]
    | some p =>
      rw [left, Option.map_some, eq_comm, Option.map_eq_some_iff] at definitions
      obtain ⟨q, right, same⟩ := definitions
      rw [right, Option.some.injEq]
      exact Lowering.eq_of_definition_eq names lowers lowers' (List.mem_of_getElem? left)
        (List.mem_of_getElem? right) same.symm

open Sample

/-- A function and one that calls it. -/
def downward : List Declaration :=
  [⟨"less", ["n"], form [name "-", name "n", .int 1 here], here⟩,
   ⟨"down", ["n"], form [name "less", form [name "less", name "n"]], here⟩]

theorem ofForms_of_perm_downward : (program downward).Perm (program downward.reverse) ∧ ∃ u u',
    (ofForms "sample" (program downward) {}).result = .ok u ∧
    (ofForms "sample" (program downward.reverse) {}).result = .ok u' ∧
    u.rounds = 3 ∧ u'.rounds = 3 ∧ u.functions[0]? = u'.functions[1]? ∧
    u'.table.signature? "down" = some "down(n Integer) Integer" := by
  obtain ⟨u, compiled, shown⟩ : ∃ u, (ofForms "sample" (program downward) {}).result = .ok u ∧
      (u.rounds, u.table.signature? "down") = (3, some "down(n Integer) Integer") :=
    exists_eq_ok (by decide +kernel)
  obtain ⟨three, signature⟩ := Prod.mk.inj shown
  have perm : (program downward).Perm (program downward.reverse) :=
    (List.reverse_perm downward).symm.map _
  obtain ⟨succeeds, same⟩ := ofForms_of_perm perm (read_program (by decide +kernel)) (by decide)
    "sample" {}
  obtain ⟨u', compiled'⟩ := succeeds.1 ⟨u, compiled⟩
  obtain ⟨rounds, -, signatures, -, -, placed⟩ := same u u' compiled compiled'
  exact ⟨perm, u, u', compiled, compiled', three, rounds ▸ three, placed 0 1 rfl,
    signatures "down" ▸ signature⟩

end CompiledUnit

end LittleLisp
