import LittleLisp.Proofs.Lowering.Closed

/-!
# Captured names

The source keeps parameters, functions and literals apart, and C does not: the parameters of a
function hide the functions of the unit, and both hide the names of the runtime. `resolve` finds
what a name in a body stands for by the rules of C, and a use is captured when that is not what the
source means.

Parameters and operators on lists are never captured. A function that a body calls is captured
exactly when a parameter is spelled like it, and a literal exactly when a parameter or a function
is; the checks that are made on names do not rule this out.
-/

namespace LittleLisp

/-- What a name stands for: a parameter or a function, by its name in the source, or something of
the runtime, by its name in C. -/
inductive Referent where
  | param (name : String)
  | function (name : String)
  | runtime (name : String)
deriving DecidableEq, Repr

/-- What the source means. -/
def Use.referent : Use → Referent
  | param name => .param name
  | literal name => .runtime name
  | function d _ => .function d.name
  | operator op _ => .runtime op.runtimeName

/-- A use that nothing is spelled like which would hide it in the body of `d`. -/
def Use.IsApart (t : SymbolTable) (s : Settings) (d : Definition) : Use → Prop
  | param _ | operator _ _ => True
  | function g _ => ∀ p ∈ d.params, Lowering.spell s p.name ≠ Lowering.spell s g.name
  | literal name => (∀ p ∈ d.params, Lowering.spell s p.name ≠ name) ∧
      ∀ g ∈ t.functions, Lowering.spell s g.name ≠ name

namespace CompiledUnit

open Lowering

/-- What a C name in the body of `f`, made from `d`, stands for in C. -/
def resolve (u : CompiledUnit) (d : Definition) (f : C.Function) (name : String) : Referent :=
  match (d.params.zip f.params).find? (·.2.2 == name) with
  | some (p, _) => .param p.name
  | none =>
    match u.functions.find? (·.2.name == name) with
    | some (g, _) => .function g.name
    | none => .runtime name

/-- A use in the body of `f` is found by its C name. -/
def Denotes (u : CompiledUnit) (s : Settings) (d : Definition) (f : C.Function) (x : Use) : Prop :=
  u.resolve d f (x.mention s).spelling = x.referent

instance (u : CompiledUnit) (s : Settings) (d : Definition) (f : C.Function) (x : Use) :
    Decidable (u.Denotes s d f x) :=
  inferInstanceAs (Decidable (_ = _))

variable {u : CompiledUnit} {forms : List Node} {s : Settings} {d : Definition} {f : C.Function}

/-- The parameters of a function beside their C forms. -/
theorem zip_params (lowers : LowersFunction u.table s d f) :
    d.params.zip f.params = d.params.map fun p => (p, paramOf s p) := by
  rw [lowers.params_eq, List.map_prod_left_eq_zip]

/-- A parameter is found by its C name. -/
theorem resolve_param (lowers : LowersFunction u.table s d f) {p : Param} (hp : p ∈ d.params) :
    u.resolve d f (spell s p.name) = .param p.name := by
  have nodup : (d.params.map fun p => spell s p.name).Nodup := by
    have distinct := lowers.distinct
    rwa [lowers.params_eq, List.map_map] at distinct
  have found : (d.params.zip f.params).find? (·.2.2 == spell s p.name) = some (p, paramOf s p) := by
    rw [zip_params lowers, List.find?_map]
    exact congrArg (Option.map _) (find?_of_nodup nodup hp)
  rw [resolve, found]

/-- Where no parameter is spelled like it, a name is looked for among the functions. -/
theorem resolve_of_no_param (lowers : LowersFunction u.table s d f) {name : String}
    (other : ∀ p ∈ d.params, spell s p.name ≠ name) :
    u.resolve d f name =
      match u.functions.find? (·.2.name == name) with
      | some (g, _) => .function g.name
      | none => .runtime name := by
  have none : (d.params.zip f.params).find? (·.2.2 == name) = none := by
    rw [zip_params lowers, List.find?_eq_none]
    intro q hq
    obtain ⟨p, hp, rfl⟩ := List.mem_map.1 hq
    simpa [paramOf] using other p hp
  rw [resolve, none]

theorem resolve_function (h : u.Lowered forms s) (lowers : LowersFunction u.table s d f)
    {g : Definition} (hg : g ∈ u.table.functions)
    (other : ∀ p ∈ d.params, spell s p.name ≠ spell s g.name) :
    u.resolve d f (spell s g.name) = .function g.name := by
  obtain ⟨c, member⟩ := h.exists_function hg
  have found := find?_of_nodup h.distinct member
  rw [(h.lowers _ member).name_eq] at found
  rw [resolve_of_no_param lowers other, found]

theorem resolve_runtime (h : u.Lowered forms s) (lowers : LowersFunction u.table s d f)
    {name : String} (no_param : ∀ p ∈ d.params, spell s p.name ≠ name)
    (no_function : ∀ g ∈ u.table.functions, spell s g.name ≠ name) :
    u.resolve d f name = .runtime name := by
  have none : u.functions.find? (·.2.name == name) = none := by
    rw [List.find?_eq_none]
    intro q hq
    have listed : q.1 ∈ u.table.functions := h.definitions ▸ List.mem_map_of_mem hq
    simpa [(h.lowers q hq).name_eq] using no_function q.1 listed
  rw [resolve_of_no_param lowers no_param, none]

/-! ## What is captured -/

/-- A use that is in scope is found by its C name exactly if nothing that hides it is spelled
like it. -/
theorem denotes_iff_isApart (h : u.Lowered forms s) (lowers : LowersFunction u.table s d f)
    {x : Use} (known : x.InScope u.table d) : u.Denotes s d f x ↔ x.IsApart u.table s d := by
  have param_allowed {p : Param} (hp : p ∈ d.params) : Allowed s (spell s p.name) := by
    refine lowers.params_allowed (paramOf s p) ?_
    rw [lowers.params_eq]
    exact List.mem_map_of_mem hp
  -- A parameter that is spelled like something else is what C finds.
  have hidden {p : Param} (hp : p ∈ d.params) (other : ∀ name, x.referent ≠ .param name)
      (finds : u.Denotes s d f x) : spell s p.name ≠ (x.mention s).spelling := by
    intro same
    rw [Denotes, ← same, resolve_param lowers hp] at finds
    exact other p.name finds.symm
  cases x with
  | param name =>
    obtain ⟨p, hp, rfl⟩ := List.mem_map.1 known
    exact iff_of_true (resolve_param lowers hp) trivial
  | operator op args =>
    refine iff_of_true (resolve_runtime h lowers ?_ ?_) trivial
    · intro p hp
      exact C.ne_runtimeName (param_allowed hp).not_runtime op
    · intro g hg
      exact C.ne_runtimeName (h.not_isRuntimeName g hg) op
  | function g args =>
    constructor
    · intro finds p hp
      exact hidden hp (by simp [Use.referent]) finds
    · intro apart
      exact resolve_function h lowers known.1 apart
  | literal name =>
    have spelled : spell s name = name := spell_of_isLiteralName s known
    constructor
    · intro finds
      have no_param : ∀ p ∈ d.params, spell s p.name ≠ name := by
        intro p hp
        have := hidden hp (by simp [Use.referent]) finds
        rwa [Use.mention, C.Mention.spelling, spelled] at this
      refine ⟨no_param, ?_⟩
      intro g hg same
      have found := resolve_function h lowers hg (same ▸ no_param)
      rw [Denotes, Use.mention, C.Mention.spelling, spelled, ← same, found] at finds
      cases finds
    · rintro ⟨no_param, no_function⟩
      rw [Denotes, Use.mention, C.Mention.spelling, spelled]
      exact resolve_runtime h lowers no_param no_function

/-- The names in a generated body are those of the uses of its source, and C finds by all of them
what the source means exactly if no parameter is spelled like a function that is called, and no
parameter and no function is spelled like a literal that is used. -/
theorem denotes_iff {file : String} (compiled : (ofForms file forms s).result = .ok u)
    (member : (d, f) ∈ u.functions) :
    ∃ source, d.body = some source ∧
      f.body.mentions = (source.bodyUses u.table).map (Use.mention s) ∧
      ((∀ x ∈ source.bodyUses u.table, u.Denotes s d f x) ↔
        (∀ g args, .function g args ∈ source.bodyUses u.table →
          ∀ p ∈ d.params, spell s p.name ≠ spell s g.name) ∧
        (∀ name, .literal name ∈ source.bodyUses u.table →
          (∀ p ∈ d.params, spell s p.name ≠ name) ∧
          ∀ g ∈ u.table.functions, spell s g.name ≠ name)) := by
  have h := lowered_of_ofForms compiled
  have lowers := h.lowers _ member
  obtain ⟨source, body, lowers_body⟩ := lowers.body
  have apart : ∀ x ∈ source.bodyUses u.table, u.Denotes s d f x ↔ x.IsApart u.table s d :=
    fun x hx => denotes_iff_isApart h lowers
      (inScope_bodyUses h.sound (h.scoped member body) x hx)
  refine ⟨source, body, lowers_body.mentions_eq, ?_⟩
  constructor
  · intro finds
    exact ⟨fun g args hx => (apart _ hx).1 (finds _ hx),
      fun name hx => (apart _ hx).1 (finds _ hx)⟩
  · rintro ⟨functions, literals⟩ x hx
    refine (apart x hx).2 ?_
    cases x with
    | param name => trivial
    | operator op args => trivial
    | function g args => exact functions g args hx
    | literal name => exact literals name hx

theorem denotes_iff_sample : ∃ u d f source,
    (ofForms "sample" sampleForms {}).result = .ok u ∧ (d, f) ∈ u.functions ∧ d.name = "g" ∧
      d.body = some source ∧ f.body.mentions = (source.bodyUses u.table).map (Use.mention {}) ∧
      ((∀ x ∈ source.bodyUses u.table, u.Denotes {} d f x) ↔
        (∀ g args, .function g args ∈ source.bodyUses u.table →
          ∀ p ∈ d.params, spell {} p.name ≠ spell {} g.name) ∧
        (∀ name, .literal name ∈ source.bodyUses u.table →
          (∀ p ∈ d.params, spell {} p.name ≠ name) ∧
          ∀ g ∈ u.table.functions, spell {} g.name ≠ name)) := by
  obtain ⟨u, d, f, compiled, member, name⟩ := @ofForms_sample "g" (by simp)
  obtain ⟨source, body, rest⟩ := denotes_iff compiled member
  exact ⟨u, d, f, source, compiled, member, name, body, rest⟩

/-- Compilation can succeed and capture a name: the body of `g` calls `a_b`, and what C finds by
that name is the parameter `a-b`. -/
theorem captured_call : ∃ u d f source,
    (ofForms "sample" sampleForms {}).result = .ok u ∧ (d, f) ∈ u.functions ∧
      d.body = some source ∧ ∃ x ∈ source.bodyUses u.table, ¬ u.Denotes {} d f x := by
  obtain ⟨u, compiled, captures⟩ : ∃ u, (ofForms "sample" sampleForms {}).result = .ok u ∧
      (u.functions.any fun p => p.1.body.any fun n =>
        (n.bodyUses u.table).any fun x => !decide (u.Denotes {} p.1 p.2 x)) = true :=
    exists_eq_ok (by decide +kernel)
  simp only [List.any_eq_true, Option.any_eq_true_iff_get, Bool.not_eq_true',
    decide_eq_false_iff_not] at captures
  obtain ⟨⟨d, f⟩, member, body, x, hx, captured⟩ := captures
  exact ⟨u, d, f, _, compiled, member, (Option.some_get body).symm, x, hx, captured⟩

end CompiledUnit

end LittleLisp
