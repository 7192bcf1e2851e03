import LittleLisp.Proofs.C.Name
import LittleLisp.Proofs.Lowering.Unit
import Mathlib.Data.List.Nodup

/-!
# Units are closed

Every name in a compiled unit is there to be found. Functions have names of their own, the
parameters of a function have names of their own, and none of these is a word of C, a name of the
runtime or a type. A call in a body names a function of the unit, with the right number of
arguments, or an operator on lists; any other name in a body is a parameter or a literal. The names
in a body are those of what its source uses, one for each use that lowering keeps.
-/

namespace LittleLisp

namespace Lowering

theorem isLiteralName_iff {name : String} :
    isLiteralName name = true ↔ name = nilWord ∨ name = trueWord := by
  simp [isLiteralName]

/-- Literals are spelled as they are, whether names are mangled or not. -/
theorem spell_of_isLiteralName (s : Settings) {name : String} (h : isLiteralName name = true) :
    spell s name = name := by
  have identifier : C.isIdentifier name.toList = true := by
    rcases isLiteralName_iff.1 h with rfl | rfl <;> decide
  unfold spell
  split
  · exact C.spell_of_isIdentifier identifier
  · rfl

end Lowering

namespace CompiledUnit

open Lowering

/-- The C names of functions and parameters are distinct and allowed. -/
structure WellNamed (u : CompiledUnit) (s : Settings) : Prop where
  functions : (u.functions.map (·.2.name)).Nodup
  params : ∀ p ∈ u.functions, (p.2.params.map (·.2)).Nodup
  allowed : ∀ p ∈ u.functions, ∀ name ∈ p.2.name :: p.2.params.map (·.2), Allowed s name

/-- Every name in a body is that of something. -/
structure Closed (u : CompiledUnit) : Prop where
  /-- A call is one of an operator on lists, or of exactly one function, with as many arguments as
  that function has parameters. -/
  calls : ∀ p ∈ u.functions, ∀ name args, .callee name args ∈ p.2.body.mentions →
    (∃ op : ListOp, name = op.runtimeName ∧ args = op.arity) ∨
    ((u.functions.map (·.2.name)).count name = 1 ∧
      ∃ q ∈ u.functions, q.2.name = name ∧ q.2.params.length = args)
  /-- A value is exactly one parameter, or a literal. -/
  values : ∀ p ∈ u.functions, ∀ name, .value name ∈ p.2.body.mentions →
    (p.2.params.map (·.2)).count name = 1 ∨ name = nilWord ∨ name = trueWord

/-- The names in every body are those of the uses that lowering keeps of its source, in order. -/
def NamesUses (u : CompiledUnit) (s : Settings) : Prop :=
  ∀ p ∈ u.functions, ∃ source, p.1.body = some source ∧
    p.2.body.mentions = (source.bodyUses u.table).map (Use.mention s)

variable {u : CompiledUnit} {forms : List Node} {s : Settings}

theorem Lowered.wellNamed (h : u.Lowered forms s) : u.WellNamed s := by
  refine ⟨h.distinct, fun p hp => (h.lowers p hp).distinct, ?_⟩
  intro p hp name hname
  rcases List.mem_cons.1 hname with rfl | hname
  · exact (h.lowers p hp).name_allowed
  · obtain ⟨q, hq, rfl⟩ := List.mem_map.1 hname
    exact (h.lowers p hp).params_allowed q hq

theorem Lowered.namesUses (h : u.Lowered forms s) : u.NamesUses s := by
  intro p hp
  obtain ⟨source, body, lowers⟩ := (h.lowers p hp).body
  exact ⟨source, body, lowers.mentions_eq⟩

/-- The names in the body of a function are those of uses that are in scope. -/
theorem Lowered.use_of_mention (h : u.Lowered forms s) {p : Definition × C.Function}
    (hp : p ∈ u.functions) {x : C.Mention} (hx : x ∈ p.2.body.mentions) :
    ∃ use : Use, use.InScope u.table p.1 ∧ use.mention s = x := by
  obtain ⟨source, body, mentions⟩ := h.namesUses p hp
  rw [mentions] at hx
  obtain ⟨use, huse, rfl⟩ := List.mem_map.1 hx
  exact ⟨use, inScope_bodyUses h.sound (h.scoped hp body) use huse, rfl⟩

/-- Every function of the table has its C function in the unit. -/
theorem Lowered.exists_function (h : u.Lowered forms s) {d : Definition}
    (hd : d ∈ u.table.functions) : ∃ f, (d, f) ∈ u.functions := by
  rw [← h.definitions] at hd
  obtain ⟨⟨_, f⟩, member, rfl⟩ := List.mem_map.1 hd
  exact ⟨f, member⟩

/-- No function of the program has a name of the runtime. -/
theorem Lowered.not_isRuntimeName (h : u.Lowered forms s) :
    ∀ d ∈ u.table.functions, C.isRuntimeName (spell s d.name) = false := by
  intro d hd
  obtain ⟨f, member⟩ := h.exists_function hd
  have lowers := h.lowers _ member
  rw [← lowers.name_eq]
  exact lowers.name_allowed.not_runtime

theorem Lowered.closed (h : u.Lowered forms s) : u.Closed := by
  constructor
  · intro p hp name args hx
    obtain ⟨use, known, same⟩ := h.use_of_mention hp hx
    cases use with
    | param _ => cases same
    | literal _ => cases same
    | operator op k =>
      obtain ⟨rfl, rfl⟩ : op.runtimeName = name ∧ k = args := by simpa [Use.mention] using same
      exact .inl ⟨op, rfl, known⟩
    | function g k =>
      obtain ⟨rfl, rfl⟩ : spell s g.name = name ∧ k = args := by simpa [Use.mention] using same
      obtain ⟨f, member⟩ := h.exists_function known.1
      have lowers := h.lowers _ member
      refine .inr ⟨?_, _, member, lowers.name_eq, ?_⟩
      · exact List.count_eq_one_of_mem h.distinct
          (List.mem_map.2 ⟨_, member, lowers.name_eq⟩)
      · rw [lowers.params_eq, List.length_map, known.2]
  · intro p hp name hx
    obtain ⟨use, known, same⟩ := h.use_of_mention hp hx
    cases use with
    | operator _ _ => cases same
    | function _ _ => cases same
    | literal literal =>
      obtain rfl : spell s literal = name := by simpa [Use.mention] using same
      rw [spell_of_isLiteralName s known]
      exact .inr (isLiteralName_iff.1 known)
    | param source =>
      obtain rfl : spell s source = name := by simpa [Use.mention] using same
      obtain ⟨q, hq, rfl⟩ := List.mem_map.1 known
      have lowers := h.lowers p hp
      refine .inl (List.count_eq_one_of_mem lowers.distinct ?_)
      rw [lowers.params_eq]
      exact List.mem_map.2 ⟨paramOf s q, List.mem_map_of_mem hq, rfl⟩

/-- Every compiled unit is well named and closed, and names in its bodies what their sources use. -/
theorem wellNamed_and_closed {file : String} (h : (ofForms file forms s).result = .ok u) :
    u.WellNamed s ∧ u.Closed ∧ u.NamesUses s := by
  have lowered := lowered_of_ofForms h
  exact ⟨lowered.wellNamed, lowered.closed, lowered.namesUses⟩

theorem wellNamed_and_closed_sample : ∃ u, (ofForms "sample" sampleForms {}).result = .ok u ∧
    u.functions ≠ [] ∧ u.WellNamed {} ∧ u.Closed ∧ u.NamesUses {} := by
  obtain ⟨u, d, f, compiled, member, -⟩ := @ofForms_sample "f" (by simp)
  exact ⟨u, compiled, List.ne_nil_of_mem member, wellNamed_and_closed compiled⟩

end CompiledUnit

end LittleLisp
