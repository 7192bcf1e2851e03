import LittleLisp.Proofs.Lowering.Use
import LittleLisp.Unit

/-!
# What a compiled unit holds

The stages of compilation each promise something: the table is sound and keeps the bodies of the
forms, validation has checked every body, and lowering has turned every function of the table into
one C function, has checked all names and has kept C names apart. `CompiledUnit.Lowered` collects
these promises, and `lowered_of_ofForms` says that every unit keeps them. The other way round, lowering
succeeds if every function can be lowered and C names differ (`exists_functions_iff`).
-/

namespace LittleLisp

namespace Lowering

variable {t : SymbolTable} {s : Settings}

/-! ## Names -/

/-- A C name that a function or a parameter may have. -/
structure Allowed (s : Settings) (name : String) : Prop where
  not_keyword : name ∉ C.keywords
  not_runtime : C.isRuntimeName name = false
  not_type : name ∉ [s.types.string, s.types.list, s.types.any]

theorem checkName_eq_ok {source : String} {l : Option Location}
    (h : checkName s source l = .ok ()) : Allowed s (spell s source) := by
  simp only [checkName] at h
  split at h
  · cases h
  · next not_keyword =>
    split at h
    · cases h
    · next other =>
      simp only [Bool.or_eq_true, beq_iff_eq, not_or, Bool.not_eq_true] at other
      obtain ⟨⟨⟨runtime, string⟩, list⟩, any⟩ := other
      refine ⟨by simpa using not_keyword, runtime, ?_⟩
      simp [string, list, any]

/-- The C names of some source names can be taken one after the other. -/
inductive Reserves (s : Settings) : Taken → List String → Prop
  | nil (taken : Taken) : Reserves s taken []
  | cons {taken more : Taken} {source : String} {rest : List String} {l : Option Location} :
      reserve taken source (spell s source) l = .ok more → Reserves s more rest →
      Reserves s taken (source :: rest)

theorem reserve_eq_ok {taken more : Taken} {source name : String} {l : Option Location}
    (h : reserve taken source name l = .ok more) :
    ((name, source) ∈ taken ∧ more = taken) ∨
      (name ∉ taken.map (·.1) ∧ more = (name, source) :: taken) := by
  unfold reserve at h
  split at h
  · next holder held =>
    split at h
    · next same =>
      obtain ⟨before, after, rfl, -⟩ := List.lookup_eq_some_iff.1 held
      refine .inl ⟨by simp [same], (Except.ok.inj h).symm⟩
    · cases h
  · next free =>
    refine .inr ⟨?_, (Except.ok.inj h).symm⟩
    intro hname
    obtain ⟨p, hp, rfl⟩ := List.mem_map.1 hname
    simpa using List.lookup_eq_none_iff.1 free p hp

/-- Different source names that are taken have different C names, and none that was taken
before. -/
theorem Reserves.distinct {taken : Taken} {sources : List String} (h : Reserves s taken sources)
    (nodup : sources.Nodup) (fresh : ∀ p ∈ taken, p.2 ∉ sources) :
    (sources.map (spell s)).Nodup ∧ ∀ p ∈ taken, p.1 ∉ sources.map (spell s) := by
  induction h with
  | nil => simp
  | @cons taken more source rest l first later ih =>
    obtain ⟨not_later, nodup⟩ := List.nodup_cons.1 nodup
    rcases reserve_eq_ok first with ⟨held, rfl⟩ | ⟨free, rfl⟩
    · exact absurd List.mem_cons_self (fresh _ held)
    · have fresh_rest : ∀ p ∈ (spell s source, source) :: taken, p.2 ∉ rest :=
        List.forall_mem_cons.2 ⟨not_later, fun p hp hmem => fresh p hp (List.mem_cons_of_mem _ hmem)⟩
      obtain ⟨nodup_rest, apart⟩ := ih nodup fresh_rest
      obtain ⟨apart_first, apart_taken⟩ := List.forall_mem_cons.1 apart
      refine ⟨List.nodup_cons.2 ⟨apart_first, nodup_rest⟩, ?_⟩
      intro p hp hmem
      rcases List.mem_cons.1 hmem with same | hmem
      · exact free (List.mem_map.2 ⟨p, hp, same⟩)
      · exact apart_taken p hp hmem

/-! ## Functions -/

/-- A parameter in C: its type and its name. -/
def paramOf (s : Settings) (p : Param) : String × String :=
  (typeName s p.type, spell s p.name)

theorem params_eq_ok {l : Option Location} {taken : Taken} {ps : List Param}
    {lowered : List (String × String)} (h : params s l taken ps = .ok lowered) :
    lowered = ps.map (paramOf s) ∧ (∀ p ∈ ps, Allowed s (spell s p.name)) ∧
      Reserves s taken (ps.map (·.name)) := by
  induction ps generalizing taken lowered with
  | nil =>
    obtain rfl := Except.ok.inj h
    exact ⟨rfl, by simp, .nil taken⟩
  | cons p rest ih =>
    simp only [params] at h
    split at h
    · cases h
    · next checked =>
      split at h
      · cases h
      · next more taken_now =>
        split at h
        · cases h
        · next later read =>
          obtain rfl := Except.ok.inj h
          obtain ⟨rfl, allowed, reserves⟩ := ih read
          exact ⟨rfl, List.forall_mem_cons.2 ⟨checkName_eq_ok checked, allowed⟩,
            .cons taken_now reserves⟩

/-- A function of the program becomes a C function. -/
structure LowersFunction (t : SymbolTable) (s : Settings) (d : Definition) (f : C.Function) :
    Prop where
  body : ∃ n, d.body = some n ∧ LowersBody t s d.name n f.body
  name_eq : f.name = spell s d.name
  ret_eq : f.ret = typeName s d.ret
  params_eq : f.params = d.params.map (paramOf s)
  name_allowed : Allowed s f.name
  params_allowed : ∀ p ∈ f.params, Allowed s p.2
  distinct : (f.params.map (·.2)).Nodup

theorem LowersFunction.of_function? (sound : t.Sound) {d : Definition} (hd : d.IsFunction)
    {lowered : Option C.Function} (h : function? t s d = .ok lowered) :
    ∃ f, lowered = some f ∧ LowersFunction t s d f := by
  unfold function? at h
  split at h
  · next no_body =>
    have := hd.body
    simp [no_body] at this
  · next n has_body =>
    split at h
    · cases h
    · next checked =>
      split at h
      · cases h
      · next ps read =>
        split at h
        · cases h
        · next b lowers =>
          obtain rfl := Except.ok.inj h
          obtain ⟨rfl, allowed, reserves⟩ := params_eq_ok read
          refine ⟨_, rfl, ⟨n, has_body, .of_body sound lowers⟩, rfl, rfl, rfl, checkName_eq_ok checked,
            ?_, ?_⟩
          · intro p hp
            obtain ⟨q, hq, rfl⟩ := List.mem_map.1 hp
            exact allowed q hq
          · have distinct := (reserves.distinct hd.params (by simp)).1
            simpa [paramOf, Function.comp_def] using distinct

theorem functionsFrom_eq_ok (sound : t.Sound) {taken : Taken} {ds : List Definition}
    {lowered : List (Definition × C.Function)} (functions : ∀ d ∈ ds, d.IsFunction)
    (h : functionsFrom t s taken ds = .ok lowered) :
    lowered.map (·.1) = ds ∧ (∀ p ∈ lowered, LowersFunction t s p.1 p.2) ∧
      Reserves s taken (ds.map (·.name)) := by
  induction ds generalizing taken lowered with
  | nil =>
    obtain rfl := Except.ok.inj h
    exact ⟨rfl, by simp, .nil taken⟩
  | cons d rest ih =>
    obtain ⟨first, functions⟩ := List.forall_mem_cons.1 functions
    simp only [functionsFrom] at h
    split at h
    · cases h
    · next more taken_now =>
      split at h
      · cases h
      · next one lowered_first =>
        obtain ⟨f, rfl, lowers⟩ := LowersFunction.of_function? sound first lowered_first
        split at h
        · cases h
        · next later read =>
          obtain rfl := Except.ok.inj h
          obtain ⟨rfl, each, reserves⟩ := ih functions read
          exact ⟨rfl, List.forall_mem_cons.2 ⟨lowers, each⟩, .cons taken_now reserves⟩

theorem function?_of_functionsFrom {taken : Taken} {ds : List Definition}
    {lowered : List (Definition × C.Function)} (h : functionsFrom t s taken ds = .ok lowered) :
    ∀ p ∈ lowered, function? t s p.1 = .ok (some p.2) := by
  induction ds generalizing taken lowered with
  | nil =>
    obtain rfl := Except.ok.inj h
    simp
  | cons d rest ih =>
    simp only [functionsFrom] at h
    split at h
    · cases h
    · split at h
      · cases h
      · next one lowered_first =>
        split at h
        · cases h
        · next later read =>
          split at h
          · obtain rfl := Except.ok.inj h
            exact List.forall_mem_cons.2 ⟨lowered_first, ih read⟩
          · obtain rfl := Except.ok.inj h
            exact ih read

/-- Functions that are lowered one by one are lowered together, if their C names differ and are
free. -/
theorem exists_functionsFrom {taken : Taken} {ds : List Definition}
    (each : ∀ d ∈ ds, ∃ f, function? t s d = .ok (some f))
    (free : ∀ d ∈ ds, spell s d.name ∉ taken.map (·.1))
    (distinct : (ds.map fun d => spell s d.name).Nodup) :
    ∃ lowered, functionsFrom t s taken ds = .ok lowered := by
  induction ds generalizing taken with
  | nil => exact ⟨[], rfl⟩
  | cons d rest ih =>
    obtain ⟨⟨f, lowered_first⟩, each⟩ := List.forall_mem_cons.1 each
    obtain ⟨free_first, free⟩ := List.forall_mem_cons.1 free
    obtain ⟨apart, distinct⟩ := List.nodup_cons.1 distinct
    have unheld : taken.lookup (spell s d.name) = none := by
      refine List.lookup_eq_none_iff.2 fun p hp => ?_
      simpa using fun same : spell s d.name = p.1 => free_first (same ▸ List.mem_map_of_mem hp)
    have taken_now : reserve taken d.name (spell s d.name) d.loc =
        .ok ((spell s d.name, d.name) :: taken) := by
      rw [reserve, unheld]
    -- The name that is taken now is not the C name of a later function.
    have still_free : ∀ e ∈ rest,
        spell s e.name ∉ ((spell s d.name, d.name) :: taken).map (·.1) := by
      intro e he held
      rcases List.mem_cons.1 held with same | held
      · exact apart (same ▸ List.mem_map_of_mem he)
      · exact free e he held
    obtain ⟨later, read⟩ := ih each still_free distinct
    exact ⟨(d, f) :: later, by simp only [functionsFrom, taken_now, lowered_first, read]⟩

/-- A table is lowered if every function is and the C names of functions differ. -/
theorem exists_functions_iff (sound : t.Sound) :
    (∃ lowered, functions t s = .ok lowered) ↔
      (∀ d ∈ t.functions, ∃ f, function? t s d = .ok (some f)) ∧
        (t.functions.map fun d => spell s d.name).Nodup := by
  constructor
  · rintro ⟨lowered, h⟩
    obtain ⟨definitions, -, reserves⟩ :=
      functionsFrom_eq_ok sound (fun d hd => sound.isFunction hd) h
    refine ⟨?_, ?_⟩
    · intro d hd
      rw [← definitions] at hd
      obtain ⟨p, hp, rfl⟩ := List.mem_map.1 hd
      exact ⟨p.2, function?_of_functionsFrom h p hp⟩
    · have distinct := (reserves.distinct sound.nodup_functions (by simp)).1
      simpa [Function.comp_def] using distinct
  · rintro ⟨each, distinct⟩
    exact exists_functionsFrom each (by simp) distinct

end Lowering

/-! ## Units -/

namespace CompiledUnit

open Lowering

/-- What holds of every compiled unit. -/
structure Lowered (u : CompiledUnit) (forms : List Node) (s : Settings) : Prop where
  sound : u.table.Sound
  written : u.table.WrittenIn forms
  valid : Validation.validate u.table = .ok ()
  definitions : u.functions.map (·.1) = u.table.functions
  lowers : ∀ p ∈ u.functions, LowersFunction u.table s p.1 p.2
  distinct : (u.functions.map (·.2.name)).Nodup

/-- Compilation succeeds if all stages do. -/
theorem ofForms_eq_ok_iff {file : String} {forms : List Node} {s : Settings} {u : CompiledUnit} :
    (ofForms file forms s).result = .ok u ↔
      s.flaw? = none ∧ ∃ t, SymbolTable.ofForms forms = .ok t ∧
        Validation.validate (Inference.infer t s.maxRounds).table = .ok () ∧
        ∃ fs, Lowering.functions (Inference.infer t s.maxRounds).table s = .ok fs ∧
          u = ⟨file, s.header, (Inference.infer t s.maxRounds).table, fs,
            (Inference.infer t s.maxRounds).rounds, (Inference.infer t s.maxRounds).converged⟩ := by
  constructor
  · intro h
    unfold ofForms at h
    split at h
    · cases h
    · next plain =>
      split at h
      · cases h
      · next t build =>
        simp only [ofInferred] at h
        split at h
        · cases h
        · next valid =>
          split at h
          · cases h
          · next fs lowers =>
            exact ⟨plain, t, build, valid, fs, lowers, (Except.ok.inj h).symm⟩
  · rintro ⟨plain, t, build, valid, fs, lowers, rfl⟩
    simp only [ofForms, plain, build, ofInferred, valid, lowers]

/-- What the stages of a compilation that succeeds give. -/
theorem ofForms_eq_ok {file : String} {forms : List Node} {s : Settings} {u : CompiledUnit}
    (h : (ofForms file forms s).result = .ok u) :
    ∃ t, SymbolTable.ofForms forms = .ok t ∧
      u.table = (Inference.infer t s.maxRounds).table ∧ Validation.validate u.table = .ok () ∧
        Lowering.functions u.table s = .ok u.functions := by
  obtain ⟨-, t, build, valid, fs, lowers, rfl⟩ := ofForms_eq_ok_iff.1 h
  exact ⟨t, build, rfl, valid, lowers⟩

/-- Compilation that succeeds gives a unit in which everything is lowered. -/
theorem lowered_of_ofForms {file : String} {forms : List Node} {s : Settings} {u : CompiledUnit}
    (h : (ofForms file forms s).result = .ok u) : u.Lowered forms s := by
  obtain ⟨t, build, table, valid, lowers⟩ := ofForms_eq_ok h
  have sound : u.table.Sound :=
    table ▸ Inference.sound_infer (SymbolTable.sound_ofForms build) s.maxRounds
  have written : u.table.WrittenIn forms :=
    table ▸ Inference.writtenIn_infer (SymbolTable.writtenIn_ofForms build) s.maxRounds
  obtain ⟨definitions, each, reserves⟩ :=
    functionsFrom_eq_ok sound (fun d hd => sound.isFunction hd) lowers
  refine ⟨sound, written, valid, definitions, each, ?_⟩
  have distinct := (reserves.distinct sound.nodup_functions (by simp)).1
  have names : u.functions.map (·.2.name) = (u.functions.map (·.1)).map fun d => spell s d.name := by
    rw [List.map_map]
    exact List.map_congr_left fun p hp => (each p hp).name_eq
  rw [names, definitions]
  simpa [Function.comp_def] using distinct

/-- The body of a function of the unit is in scope. -/
theorem Lowered.scoped {u : CompiledUnit} {forms : List Node} {s : Settings}
    (h : u.Lowered forms s) {d : Definition} {f : C.Function} (member : (d, f) ∈ u.functions)
    {n : Node} (body : d.body = some n) : Validation.Scoped u.table d n := by
  refine Validation.scoped_of_validate h.valid ?_ body
  rw [← h.definitions]
  exact List.mem_map_of_mem member

/-! ## A program -/

/-- A program of three functions: one that is called by the others, one with a conditional as its
body and a choice on a constant in it, and one with a parameter `a-b` that calls `a_b`. -/
def sampleForms : List Node :=
  let here : Location := ⟨"sample", 1, 1, 1, none⟩
  let name (text : String) : Node := .ident text here
  let form (members : List Node) : Node := .call members here
  [form [name "defun", name "a_b", form [name "x"], form [name "car", name "x"]],
   form [name "defun", name "f", form [name "y"], .cond
     [(form [name "a_b", name "y"], name "nil"),
      (form [name "if", .int 0 here, name "y", name "T"],
        form [name "cons", name "y", .str "q" here])] here],
   form [name "defun", name "g", form [name "a-b"], form [name "a_b", name "a-b"]]]

/-- The program compiles, and each of its functions is in the unit. -/
theorem ofForms_sample {name : String} (h : name ∈ ["a_b", "f", "g"]) :
    ∃ u d f, (ofForms "sample" sampleForms {}).result = .ok u ∧ (d, f) ∈ u.functions ∧
      d.name = name := by
  obtain ⟨u, compiled, names⟩ : ∃ u, (ofForms "sample" sampleForms {}).result = .ok u ∧
      u.functions.map (·.1.name) = ["a_b", "f", "g"] :=
    exists_eq_ok (by decide +kernel)
  rw [← names] at h
  obtain ⟨⟨d, f⟩, member, rfl⟩ := List.mem_map.1 h
  exact ⟨u, d, f, compiled, member, rfl⟩

end CompiledUnit

end LittleLisp
