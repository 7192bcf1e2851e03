import LittleLisp.Proofs.Inference.Range
import LittleLisp.Proofs.Lowering.Unit
import LittleLisp.Proofs.Unit.Faults

/-!
# Types in reports and prototypes

What inference finds is within bounds (`SymbolTable.InRange`), and two things follow. The only fault
about types is that an argument stands in the place of an integer and is certainly none; the uses of a
parameter never clash. And the types of prototypes are `int` and the type of any value, besides
`char` and the type of strings for results; no prototype depends on how lists are spelled in C.
-/

namespace LittleLisp

/-- An argument is in the place of an integer, and its type is that of no integer. -/
def Fault.MissesInteger (f : Fault) : Prop :=
  ∃ function param position got, f = .mismatch function param position .integer got ∧
    1 ≤ position ∧ got ∈ [ValueType.char, .string, .nothing]

/-- The settings with another C spelling for the type of lists. -/
def Settings.withListName (s : Settings) (list : String) : Settings :=
  { s with types := { s.types with list } }

/-! ## Faults about types -/

namespace Validation

variable {t : SymbolTable} {d : Definition}

theorem shownType_ne_list (range : t.InRange) (sound : t.Sound) (n : Node) :
    n.shownType t ≠ .list := by
  cases callee : n.callee? t with
  | none => cases n <;> simp [Node.shownType, callee]
  | some g =>
    have ret := (range.of_callee? sound callee).2
    cases n <;> simp [Node.shownType, callee, ret]

theorem Refused.missesInteger (range : t.InRange) (sound : t.Sound) {n : Node} {problem : Problem}
    (h : Refused t d n problem) (kind : problem.fault.kind = .mismatch) :
    problem.fault.MissesInteger := by
  have resolves {m : Node} (unresolved : Unresolved t m problem) : False := by
    rcases unresolved.kind_eq with other | other <;> simp [other] at kind
  cases h with
  | ident => cases kind
  | callee unresolved => exact (resolves unresolved).elim
  | argument _ _ _ first =>
    obtain ⟨_, _, _, -, -, unresolved⟩ := first
    exact (resolves unresolved).elim
  | arity => cases kind
  | @mismatch name g args i p arg at_ l found _ _ param _ _ clash =>
    have params := (range.of_callee? (n := .call (.ident name at_ :: args) l) sound found).1
    have list := shownType_ne_list range sound arg
    rcases params p (List.mem_of_getElem? param) with type | type
    · simp [type, ValueType.isCompatible] at clash
    · refine ⟨g.name, p.name, i + 1, arg.shownType t, by rw [type, Fault.at], by omega, ?_⟩
      rw [type] at clash
      revert clash list
      cases arg.shownType t <;> decide

theorem missesInteger_of_validate (range : t.InRange) (sound : t.Sound) {problem : Problem}
    (h : validate t = .error problem) (kind : problem.fault.kind = .mismatch) :
    problem.fault.MissesInteger := by
  rcases conflict_or_refused_of_validate sound h with
    ⟨d, hd, p, hp, clash, -⟩ | ⟨_, -, _, -, _, -, refused⟩
  · rcases range.params d hd p hp with type | type <;> simp [type] at clash
  · exact refused.missesInteger range sound kind

end Validation

/-! ## Types in C -/

namespace Lowering

variable {t : SymbolTable} {s : Settings} {d : Definition}

theorem typeName_mem {type : ValueType} (h : type ≠ .list) :
    typeName s type ∈ ["int", "char", s.types.string, s.types.any] := by
  cases type with
  | list => exact absurd rfl h
  | any | integer | char | string | nothing => simp [typeName]

theorem typeName_withListName {type : ValueType} (h : type ≠ .list) (list : String) :
    typeName (s.withListName list) type = typeName s type := by
  cases type with
  | list => exact absurd rfl h
  | any | integer | char | string | nothing => rfl

/-- The prototype of the C function that a function becomes. -/
def prototypeOf (s : Settings) (d : Definition) : String :=
  typeName s d.ret ++ " " ++ spell s d.name ++ "(" ++
    ",".intercalate (d.params.map fun p => typeName s p.type ++ " " ++ spell s p.name) ++ ")"

theorem LowersFunction.prototype_eq {f : C.Function} (h : LowersFunction t s d f) :
    f.prototype = prototypeOf s d := by
  simp [C.Function.prototype, prototypeOf, h.ret_eq, h.name_eq, h.params_eq, paramOf,
    Function.comp_def]

theorem prototypeOf_withListName (range : t.InRange) (hd : d ∈ t.functions) (list : String) :
    prototypeOf (s.withListName list) d = prototypeOf s d := by
  have param (p : Param) (hp : p ∈ d.params) :
      typeName (s.withListName list) p.type = typeName s p.type := by
    apply typeName_withListName
    rcases range.params d hd p hp with type | type <;> simp [type]
  have params : (d.params.map fun p =>
        typeName (s.withListName list) p.type ++ " " ++ spell (s.withListName list) p.name) =
      d.params.map fun p => typeName s p.type ++ " " ++ spell s p.name :=
    List.map_congr_left fun p hp => by rw [param p hp]; rfl
  rw [prototypeOf, params, typeName_withListName (range.ret d hd)]
  rfl

/-- What the types of the C function of `d` are. -/
theorem LowersFunction.types (range : t.InRange) (hd : d ∈ t.functions) {f : C.Function}
    (h : LowersFunction t s d f) :
    f.ret ∈ ["int", "char", s.types.string, s.types.any] ∧
      ∀ q ∈ f.params, q.1 ∈ ["int", s.types.any] := by
  constructor
  · rw [h.ret_eq]
    exact typeName_mem (range.ret d hd)
  · intro q hq
    rw [h.params_eq] at hq
    obtain ⟨p, hp, rfl⟩ := List.mem_map.1 hq
    rcases range.params d hd p hp with type | type <;> simp [paramOf, type, typeName]

end Lowering

/-! ## Compiling -/

namespace CompiledUnit

open Lowering

variable {file : String} {source : Source} {forms : List Node} {s : Settings} {u : CompiledUnit}

theorem Lowered.prototypes (h : u.Lowered forms s) :
    u.functions.map (·.2.prototype) = u.table.functions.map (prototypeOf s) := by
  rw [← h.definitions, List.map_map]
  exact List.map_congr_left fun p hp => (h.lowers p hp).prototype_eq

theorem inRange_of_ofForms (h : (ofForms file forms s).result = .ok u) : u.table.InRange := by
  obtain ⟨t, build, table, -⟩ := ofForms_eq_ok h
  rw [table]
  exact Inference.inRange_infer build s.maxRounds

theorem missesInteger_of_ofForms {problem : Problem}
    (h : (ofForms file forms s).result = .error problem) (kind : problem.fault.kind = .mismatch) :
    problem.fault.MissesInteger := by
  obtain ⟨t, build, invalid⟩ := validate_of_mismatch h kind
  have sound := Inference.sound_infer (SymbolTable.sound_ofForms build) s.maxRounds
  exact Validation.missesInteger_of_validate (Inference.inRange_infer build s.maxRounds) sound
    invalid kind

theorem types_of_ofForms (h : (ofForms file forms s).result = .ok u) :
    ∀ p ∈ u.functions, p.2.ret ∈ ["int", "char", s.types.string, s.types.any] ∧
      ∀ q ∈ p.2.params, q.1 ∈ ["int", s.types.any] := by
  intro p hp
  have lowered := lowered_of_ofForms h
  have hd : p.1 ∈ u.table.functions := by
    rw [← lowered.definitions]
    exact List.mem_map_of_mem hp
  exact (lowered.lowers p hp).types (inRange_of_ofForms h) hd

/-- How lists are spelled does not show in any prototype. -/
theorem prototypes_withListName {list : String} {v : CompiledUnit}
    (h : (ofForms file forms s).result = .ok u)
    (h' : (ofForms file forms (s.withListName list)).result = .ok v) :
    v.functions.map (·.2.prototype) = u.functions.map (·.2.prototype) := by
  have same : v.table = u.table := by
    obtain ⟨t, build, table, -⟩ := ofForms_eq_ok h
    obtain ⟨t', build', table', -⟩ := ofForms_eq_ok h'
    obtain rfl := Except.ok.inj (build.symm.trans build')
    rw [table, table']
    rfl
  rw [(lowered_of_ofForms h').prototypes, (lowered_of_ofForms h).prototypes, same]
  exact List.map_congr_left fun d hd => prototypeOf_withListName (inRange_of_ofForms h) hd list

/-- In the tables of a program a parameter is an integer or may be anything, and no result is a list,
whatever the number of rounds. So no compilation ever says that the uses of a parameter clash, and
each mismatch that it reports is of an argument in the place of an integer, with the type of a
character, of a string, or of a call that never gives a value. The types of parameters in C are `int`
and that of any value, those of results besides these `char` and that of strings; and to spell the
type of lists in another way changes no prototype. -/
theorem types_in_range :
    (∀ (forms : List Node) (t : SymbolTable), SymbolTable.ofForms forms = .ok t →
      ∀ n, ∀ d ∈ (Inference.round^[n] t).functions,
        (∀ p ∈ d.params, p.type ∈ [ValueType.any, .integer]) ∧
          d.ret ∈ [ValueType.any, .integer, .char, .string, .nothing]) ∧
    ∀ (file : String) (source : Source) (s : Settings),
      (∀ report, (compile file source s).result = .error report →
        (∀ function param, report.problem.fault ≠ .conflict function param) ∧
          (report.problem.fault.kind = .mismatch → report.problem.fault.MissesInteger)) ∧
      ∀ u, (compile file source s).result = .ok u →
        (∀ p ∈ u.functions, p.2.ret ∈ ["int", "char", s.types.string, s.types.any] ∧
          ∀ q ∈ p.2.params, q.1 ∈ ["int", s.types.any]) ∧
        ∀ list v, (compile file source (s.withListName list)).result = .ok v →
          v.functions.map (·.2.prototype) = u.functions.map (·.2.prototype) := by
  refine ⟨?_, fun file source s => ⟨?_, ?_⟩⟩
  · intro forms t build n d hd
    have range := Inference.inRange_iterate build n
    constructor
    · intro p hp
      rcases range.params d hd p hp with type | type <;> simp [type]
    · have list := range.ret d hd
      revert list
      cases d.ret <;> decide
  · intro report failed
    have misses (kind : report.problem.fault.kind = .mismatch) :
        report.problem.fault.MissesInteger := by
      rcases problem_of_compile failed with reading | ⟨forms, failed⟩
      · rw [kind] at reading
        cases reading
      · exact missesInteger_of_ofForms failed kind
    refine ⟨?_, misses⟩
    intro function param clash
    obtain ⟨_, _, _, _, mismatch, -, -⟩ := misses (by rw [clash]; rfl)
    rw [clash] at mismatch
    cases mismatch
  · intro u compiled
    obtain ⟨forms, parsed, compiled⟩ := ofForms_of_compile compiled
    refine ⟨types_of_ofForms compiled, ?_⟩
    intro list v compiled'
    obtain ⟨forms', parsed', compiled'⟩ := ofForms_of_compile compiled'
    obtain rfl := Except.ok.inj (parsed.symm.trans parsed')
    exact prototypes_withListName compiled compiled'

/-- A function that adds a string to its parameter. -/
def stringSum : Source :=
  Source.ofString "(defun f (x) (+ x \"a\"))"

/-- A function of which the parameter has to be an integer, and one of which it may be anything. -/
def pickOrSay : Source :=
  Source.ofString "(defun f (x) (if x 1 2)) (defun g (y) \"a\")"

theorem types_in_range_sample :
    (∃ report, (compile "sample" stringSum {}).result = .error report ∧
      report.problem.fault.kind = .mismatch ∧ report.problem.fault.MissesInteger) ∧
    ∃ u v, (compile "sample" pickOrSay {}).result = .ok u ∧
      (compile "sample" pickOrSay (Settings.withListName {} "LL_Chain")).result = .ok v ∧
      u.functions.map (·.2.prototype) = ["int f(int x)", "LL_String g(LL_Any y)"] ∧
      v.functions.map (·.2.prototype) = u.functions.map (·.2.prototype) := by
  obtain ⟨report, failed, kind⟩ : ∃ report,
      (compile "sample" stringSum {}).result = .error report ∧
        report.problem.fault.kind = .mismatch :=
    exists_eq_error (by decide +kernel)
  obtain ⟨u, compiled, prototypes⟩ : ∃ u, (compile "sample" pickOrSay {}).result = .ok u ∧
      u.functions.map (·.2.prototype) = ["int f(int x)", "LL_String g(LL_Any y)"] :=
    exists_eq_ok (by decide +kernel)
  obtain ⟨v, compiled', -⟩ : ∃ v,
      (compile "sample" pickOrSay (Settings.withListName {} "LL_Chain")).result = .ok v ∧
        v.functions.length = 2 :=
    exists_eq_ok (by decide +kernel)
  constructor
  · exact ⟨report, failed, kind, ((types_in_range.2 "sample" stringSum {}).1 report failed).2 kind⟩
  · refine ⟨u, v, compiled, compiled', prototypes, ?_⟩
    exact ((types_in_range.2 "sample" pickOrSay {}).2 u compiled).2 "LL_Chain" v compiled'

end CompiledUnit

end LittleLisp
