import LittleLisp.Proofs.Inference.Params
import LittleLisp.Proofs.SymbolTable.Permutation
import LittleLisp.Proofs.Tree.RoundTrip

/-!
# What the types of a function depend on

Two programs may have some functions in common, with all functions that those call, and differ in
everything else. One round gives such a function the same types in both, if the round before did
(`agree_succ`), so any number of rounds does.

The programs need not take the same number of rounds until they are stable, and the limit may stop
one of them and not the other. This cannot be seen: inference ends in the table after all rounds
that the limit allows, and it only ends earlier when the rest of them would change nothing. So the
common functions have the same types in the end (`infer_eq_of_shares`).
-/

namespace LittleLisp

/-! ## Places do not matter -/

namespace Node

theorem eraseClauses_eq (clauses : List (Node × Node)) :
    eraseClauses clauses = clauses.map fun c => (c.1.erase, c.2.erase) := by
  induction clauses with
  | nil => rfl
  | cons c rest ih => rw [eraseClauses, ih, List.map_cons]

theorem walk_erase (n : Node) : n.erase.walk = n.walk.map erase := by
  induction n using Node.induction with
  | int | char | str | ident => rfl
  | call members l ih =>
    simp only [erase, walk, eraseAll_eq, walkAll_eq, List.map_cons, List.map_flatMap,
      List.flatMap_map, List.flatMap_congr ih]
  | cond clauses l ih =>
    have each (c : Node × Node) (hc : c ∈ clauses) :
        c.1.erase.walk ++ c.2.erase.walk = (c.1.walk ++ c.2.walk).map erase := by
      rw [(ih c hc).1, (ih c hc).2, List.map_append]
    simp only [erase, walk, eraseClauses_eq, walkClauses_eq, List.map_cons, List.map_flatMap,
      List.flatMap_map, List.flatMap_congr each]

@[simp] theorem callee?_erase (t : SymbolTable) (n : Node) : n.erase.callee? t = n.callee? t := by
  cases n with
  | int | char | str | ident | cond => rfl
  | call members l =>
    cases members with
    | nil => rfl
    | cons first args => cases first <;> rfl

theorem args_erase (n : Node) : n.erase.args = n.args.map erase := by
  cases n with
  | int | char | str | ident | cond => rfl
  | call members l =>
    cases members with
    | nil => rfl
    | cons first rest => simp [erase, args]

end Node

namespace Inference

theorem usesOfArgs_erase (args : List Node) (params : List Param) :
    usesOfArgs (args.map Node.erase) params = usesOfArgs args params := by
  induction args generalizing params with
  | nil => cases params <;> rfl
  | cons arg rest ih =>
    cases params with
    | nil => cases arg <;> rfl
    | cons p params => cases arg <;> simp [usesOfArgs, Node.erase, ih]

theorem uses_erase (t : SymbolTable) (n : Node) : uses t n.erase = uses t n := by
  have each (m : Node) : usesOfNode t m.erase = usesOfNode t m := by
    rw [usesOfNode_eq, usesOfNode_eq, Node.callee?_erase, Node.args_erase]
    cases (m.callee? t).map (·.params) with
    | none => rfl
    | some params => exact usesOfArgs_erase _ _
  simp only [uses, Node.walk_erase, List.flatMap_map, each]

theorem derive_erase (t : SymbolTable) (d : Definition) (n : Node) :
    derive t d n.erase = derive t d n := by
  induction n using Node.induction with
  | int | char | str | ident => rfl
  | call members l ih =>
    cases members with
    | nil => rfl
    | cons first args =>
      obtain ⟨-, each⟩ := List.forall_mem_cons.1 ih
      cases first with
      | ident name at_ =>
        have types : deriveAll t d (args.map Node.erase) = deriveAll t d args := by
          rw [deriveAll_eq, deriveAll_eq, List.map_map]
          exact List.map_congr_left each
        simp only [Node.erase, Node.eraseAll_eq, List.map_cons, derive, types]
      | int | char | str | call | cond => rfl
  | cond clauses l ih =>
    simp only [Node.erase, derive]
    induction clauses with
    | nil => rfl
    | cons c rest step =>
      obtain ⟨first, later⟩ := List.forall_mem_cons.1 ih
      simp only [Node.eraseClauses, deriveClauses, first.2, step later]

/-! ## One round -/

/-- Two tables refine two functions alike that have the same parameters and, places apart, the same
body, if they agree on what the body calls. -/
theorem face_refine {t u : SymbolTable} {d e : Definition}
    (params : d.params.map (·.name) = e.params.map (·.name))
    (operator : d.operator = e.operator) {body body' : Node} (written : d.body = some body)
    (written' : e.body = some body') (erased : body.erase = body'.erase)
    (same : ∀ m ∈ body.walk, (m.callee? t).map face = (m.callee? u).map face) :
    face (refine t d) = face (refine u e) := by
  have uses_eq : uses t body = uses u body' := by
    rw [← uses_erase u body', ← erased, uses_erase]
    apply uses_congr
    intro m hm
    simpa [face, Function.comp_def] using congrArg (Option.map Prod.fst) (same m hm)
  have params_eq : refineParams t body d.params = refineParams u body' e.params := by
    have spelled (us : List Param) (ps : List Param) :
        (ps.map fun p => (⟨p.name, usedAs us p.name⟩ : Param)) =
          (ps.map (·.name)).map fun name => ⟨name, usedAs us name⟩ := by
      rw [List.map_map]
      rfl
    simp only [refineParams, uses_eq, spelled, params]
  simp only [refine, written, written', face, operator, params_eq, Prod.mk.injEq, and_true, true_and]
  -- The two definitions may differ in name and place, which `derive` does not read.
  rw [← derive_erase u _ body', ← erased, derive_erase]
  apply derive_congr
  · rfl
  · exact same

end Inference

namespace SymbolTable

/-- Two tables share the functions of some names: both have them, with the same parameters and, places
apart, the same bodies; and what these functions call is in the library, is one of them, or is in
neither of the tables. -/
structure Shares (t u : SymbolTable) (names : Set String) : Prop where
  functions : ∀ name ∈ names, ∃ d ∈ t.functions, ∃ e ∈ u.functions,
    d.name = name ∧ e.name = name ∧ d.params.map (·.name) = e.params.map (·.name) ∧
      d.body.map Node.erase = e.body.map Node.erase
  calls : ∀ d ∈ t.functions, d.name ∈ names → ∀ body, d.body = some body →
    ∀ head at_ args l, .call (.ident head at_ :: args) l ∈ body.walk →
      (∃ op ∈ Builtin.library, Text.toLower head = op.name) ∨ Text.toLower head ∈ names ∨
        t.lookup head = none ∧ u.lookup head = none

theorem operator_of_mem_functions {t : SymbolTable} {forms : List Node}
    (build : ofForms forms = .ok t) {d : Definition} (hd : d ∈ t.functions) : d.operator = none := by
  obtain ⟨form, -, defined⟩ := exists_form_of_mem_functions build hd
  obtain ⟨_, _, _, _, _, _, _, _, _, -, -, -, -, rfl⟩ := Definition.ofForm_eq_ok defined
  rfl

end SymbolTable

namespace Inference

variable {t u : SymbolTable} {names : Set String} {forms forms' : List Node}

/-- Two tables agree on the types of some names. -/
def Agree (t u : SymbolTable) (names : Set String) : Prop :=
  ∀ name ∈ names, (t.get? name).map face = (u.get? name).map face

/-- A function about which nothing is known says no more than the names of its parameters. -/
theorem params_of_isNew {d : Definition} (new : d.IsNew) :
    d.params = (d.params.map (·.name)).map fun name => ⟨name, .any⟩ := by
  have each (p : Param) (hp : p ∈ d.params) : (⟨p.name, .any⟩ : Param) = p := by
    rw [← new.params p hp]
  rw [List.map_map, eq_comm]
  exact (List.map_congr_left (g := id) each).trans (List.map_id _)

section Shared

variable (build : SymbolTable.ofForms forms = .ok t) (build' : SymbolTable.ofForms forms' = .ok u)
  (shares : t.Shares u names)

include build build' shares

theorem agree_zero : Agree t u names := by
  intro name member
  obtain ⟨d, hd, e, he, rfl, same, params, -⟩ := shares.functions name member
  have new := SymbolTable.isNew_ofForms build d hd
  have new' := SymbolTable.isNew_ofForms build' e he
  have faces : face d = face e := by
    rw [face, face, params_of_isNew new, params_of_isNew new', params, new.ret, new'.ret,
      SymbolTable.operator_of_mem_functions build hd,
      SymbolTable.operator_of_mem_functions build' he]
  have found := (SymbolTable.sound_ofForms build).get?_of_mem_functions hd
  have found' := (SymbolTable.sound_ofForms build').get?_of_mem_functions he
  rw [found, ← same, found', Option.map_some, Option.map_some, faces]

/-- The tables after as many rounds agree on all that a common function calls. -/
theorem callee_agree {n : Nat} (agree : Agree (round^[n] t) (round^[n] u) names) {d : Definition}
    (hd : d ∈ t.functions) (member : d.name ∈ names) {body : Node} (written : d.body = some body)
    {m : Node} (inside : m ∈ body.walk) :
    (m.callee? (round^[n] t)).map face = (m.callee? (round^[n] u)).map face := by
  have sound := SymbolTable.sound_ofForms build
  have sound' := SymbolTable.sound_ofForms build'
  unfold Node.callee?
  split
  · next head at_ args l =>
    rcases shares.calls d hd member body written head at_ args l inside with
      ⟨op, hop, named⟩ | called | ⟨undefined, undefined'⟩
    · obtain ⟨ws, -, lists⟩ := SymbolTable.lists_ofForms build
      obtain ⟨ws', -, lists'⟩ := SymbolTable.lists_ofForms build'
      rw [SymbolTable.lookup, SymbolTable.lookup, named, (lists.iterate sound n).operators op hop,
        (lists'.iterate sound' n).operators op hop]
    · exact agree _ called
    · rw [lookup_iterate sound, lookup_iterate sound', undefined, undefined']
      rfl
  · rfl

/-- A round keeps the agreement of two programs on their common functions. -/
theorem agree_succ {n : Nat} (agree : Agree (round^[n] t) (round^[n] u) names) :
    Agree (round^[n + 1] t) (round^[n + 1] u) names := by
  intro name member
  obtain ⟨d, hd, e, he, rfl, same, params, bodies⟩ := shares.functions name member
  have sound := SymbolTable.sound_ofForms build
  have sound' := SymbolTable.sound_ofForms build'
  have operators : d.operator = e.operator := by
    rw [SymbolTable.operator_of_mem_functions build hd,
      SymbolTable.operator_of_mem_functions build' he]
  obtain ⟨body, written⟩ := Option.isSome_iff_exists.1 (sound.isFunction hd).body
  rw [written, Option.map_some, eq_comm, Option.map_eq_some_iff] at bodies
  obtain ⟨body', written', erased⟩ := bodies
  have faces := face_refine params operators written written' erased.symm fun m hm =>
    callee_agree build build' shares agree hd member written hm
  have found := sound.get?_of_mem_functions hd
  have found' := sound'.get?_of_mem_functions he
  rw [get?_iterate sound, get?_iterate sound', found, ← same, found', Option.map_some,
    Option.map_some, Option.map_some, Option.map_some, stage_succ, stage_succ, faces]

theorem agree_iterate (n : Nat) : Agree (round^[n] t) (round^[n] u) names := by
  induction n with
  | zero => exact agree_zero build build' shares
  | succ n ih => exact agree_succ build build' shares ih

end Shared

/-- If two programs have functions in common, with all that these call, then inference gives them the
same parameter types and results in both, whatever the limit is and whether or not it is enough for
the one program or the other. -/
theorem infer_eq_of_shares (build : SymbolTable.ofForms forms = .ok t)
    (build' : SymbolTable.ofForms forms' = .ok u) (shares : t.Shares u names) (max : Int)
    {name : String} (member : name ∈ names) :
    ∃ d e, (infer t max).table.get? name = some d ∧ (infer u max).table.get? name = some e ∧
      d.params = e.params ∧ d.ret = e.ret := by
  have sound := SymbolTable.sound_ofForms build
  have sound' := SymbolTable.sound_ofForms build'
  have agree := agree_iterate build build' shares (limitOf max) name member
  obtain ⟨d, hd, -, -, rfl, -⟩ := shares.functions name member
  have found : (round^[limitOf max] t).get? d.name = some (stage t (limitOf max) d) := by
    rw [get?_iterate sound, sound.get?_of_mem_functions hd, Option.map_some]
  rw [found, Option.map_some, eq_comm, Option.map_eq_some_iff] at agree
  obtain ⟨e, found', faces⟩ := agree
  simp only [face, Prod.mk.injEq] at faces
  -- Where a run stops does not show: its table is the one after all rounds of the limit.
  refine ⟨_, e, ?_, ?_, faces.1.symm, faces.2.1.symm⟩
  · rw [infer, table_run sound, found]
  · rw [infer, table_run sound', found']

open Sample

def twice : Declaration :=
  ⟨"twice", ["x"], form [name "+", name "x", name "x"], here⟩

def quad : Declaration :=
  ⟨"quad", ["y"], form [name "twice", form [name "twice", name "y"]], here⟩

/-- A program with the same functions, and with others that hand a parameter on to them. This takes
more than three rounds. -/
def relay : List Declaration :=
  [⟨"a", ["n"], form [name "b", name "n"], here⟩, quad,
   ⟨"b", ["n"], form [name "quad", name "n"], here⟩, twice]

theorem shares_twice {t u : SymbolTable}
    (build : SymbolTable.ofForms (program [twice, quad]) = .ok t)
    (build' : SymbolTable.ofForms (program relay) = .ok u) : t.Shares u {"twice", "quad"} := by
  have functions : t.functions = [twice, quad].map (·.definition) :=
    SymbolTable.functions_of_distinct (read_program (by decide +kernel)) (by decide) build
  have functions' : u.functions = relay.map (·.definition) :=
    SymbolTable.functions_of_distinct (read_program (by decide +kernel)) (by decide) build'
  refine ⟨?_, ?_⟩
  · rintro name (rfl | rfl)
    · exact ⟨twice.definition, by simp [functions], twice.definition, by simp [functions', relay],
        rfl, rfl, rfl, rfl⟩
    · exact ⟨quad.definition, by simp [functions], quad.definition, by simp [functions', relay],
        rfl, rfl, rfl, rfl⟩
  · intro d hd _ body written head at_ args l inside
    simp only [functions, List.map_cons, List.map_nil, List.mem_cons, List.not_mem_nil,
      or_false] at hd
    rcases hd with rfl | rfl
    · obtain rfl := Option.some.inj written
      simp only [twice, form, name, Node.walk, Node.walkAll, List.mem_cons, List.mem_append,
        Node.call.injEq, List.cons.injEq, Node.ident.injEq, reduceCtorEq, List.not_mem_nil,
        or_false] at inside
      obtain ⟨⟨⟨rfl, -⟩, -⟩, -⟩ := inside
      exact .inl ⟨.binary .add, by decide, by decide +kernel⟩
    · obtain rfl := Option.some.inj written
      simp only [quad, form, name, Node.walk, Node.walkAll, List.mem_cons, List.mem_append,
        Node.call.injEq, List.cons.injEq, Node.ident.injEq, reduceCtorEq, List.not_mem_nil, or_false,
        false_or] at inside
      rcases inside with ⟨⟨⟨rfl, -⟩, -⟩, -⟩ | ⟨⟨⟨rfl, -⟩, -⟩, -⟩
      · exact .inr (.inl (by decide +kernel))
      · exact .inr (.inl (by decide +kernel))

theorem infer_eq_of_shares_twice : ∃ t u, SymbolTable.ofForms (program [twice, quad]) = .ok t ∧
    SymbolTable.ofForms (program relay) = .ok u ∧ t.Shares u {"twice", "quad"} ∧
    (infer t 3).converged = true ∧ (infer u 3).converged = false ∧
    ∃ d e, (infer t 3).table.get? "quad" = some d ∧ (infer u 3).table.get? "quad" = some e ∧
      d.params = e.params ∧ d.ret = e.ret := by
  obtain ⟨t, build, stable⟩ : ∃ t, SymbolTable.ofForms (program [twice, quad]) = .ok t ∧
      (infer t 3).converged = true :=
    exists_eq_ok (by decide +kernel)
  obtain ⟨u, build', unstable⟩ : ∃ u, SymbolTable.ofForms (program relay) = .ok u ∧
      (infer u 3).converged = false :=
    exists_eq_ok (by decide +kernel)
  have shares := shares_twice build build'
  exact ⟨t, u, build, build', shares, stable, unstable,
    infer_eq_of_shares build build' shares 3 (by simp)⟩

end Inference

end LittleLisp
