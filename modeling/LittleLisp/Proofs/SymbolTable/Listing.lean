import LittleLisp.Proofs.Inference.Stage
import LittleLisp.Proofs.Text.Case
import LittleLisp.Tree.Defun

/-!
# What the table of a program lists

A form defines a function if it is written in one way only (`Node.Defines`), and a list of forms makes
a table if each of them does. The table lists the functions in the order in which their names came
first, and each as its last definition says (`SymbolTable.Lists`). A definition that is added keeps
this, and so does a round of inference, which changes types only. Everything else in the table is the
library as it was at the start (`ofForms_lists`).
-/

namespace LittleLisp

/-! ## Forms that define functions -/

/-- What a form says about the function that it defines. -/
structure Declaration where
  /-- The name in lower case. -/
  name : String
  params : List String
  body : Node
  loc : Location

/-- A form defines a function. -/
inductive Node.Defines : Node → Declaration → Prop where
  | defun {head written : String} {params : List Written} (headLoc writtenLoc paramsLoc : Location)
    (body : Node) (l : Location) (keyword : isNamed head defunWord = true)
    (free : isReserved (Text.toLower written) = false) (distinct : (params.map (·.name)).Nodup) :
    Defines
      (.call [.ident head headLoc, .ident written writtenLoc,
        .call (params.map fun p => .ident p.name p.loc) paramsLoc, body] l)
      ⟨Text.toLower written, params.map (·.name), body, l⟩

/-- The definition of a function about the types of which nothing is known. -/
def Declaration.definition (w : Declaration) : Definition where
  name := w.name
  params := w.params.map fun name => ⟨name, .any⟩
  ret := .nothing
  body := some w.body
  loc := some w.loc

/-- A definition has what was declared, with whatever types. -/
structure Definition.Carries (d : Definition) (w : Declaration) : Prop where
  params : d.params.map (·.name) = w.params
  body : d.body = some w.body
  loc : d.loc = some w.loc

theorem Declaration.carries_definition (w : Declaration) : w.definition.Carries w :=
  ⟨by simp [definition, Function.comp_def], rfl, rfl⟩

namespace Definition

theorem paramsOf_idents {function : String} {known : List String} {params : List Node.Written}
    (distinct : (params.map (·.name)).Nodup) (fresh : ∀ p ∈ params, p.name ∉ known) :
    paramsOf function known (params.map fun p => .ident p.name p.loc) =
      .ok (params.map fun p => ⟨p.name, .any⟩) := by
  induction params generalizing known with
  | nil => rfl
  | cons p rest ih =>
    obtain ⟨not_later, distinct⟩ := List.nodup_cons.1 distinct
    obtain ⟨first, later⟩ := List.forall_mem_cons.1 fresh
    have read : paramsOf function (known ++ [p.name]) (rest.map fun p => .ident p.name p.loc) =
        .ok (rest.map fun p => ⟨p.name, .any⟩) := by
      apply ih distinct
      intro q hq member
      rcases List.mem_append.1 member with member | same
      · exact later q hq member
      · exact not_later (List.mem_map.2 ⟨q, hq, List.mem_singleton.1 same⟩)
    have unknown : known.contains p.name = false := by simpa using first
    simp only [List.map_cons, paramsOf, unknown, read, Bool.false_eq_true, if_false]

theorem idents_of_paramsOf {function : String} {known : List String} {args : List Node}
    {params : List Param} (h : paramsOf function known args = .ok params) :
    ∃ ps : List Node.Written, args = (ps.map fun p => .ident p.name p.loc) ∧
      params = ps.map fun p => ⟨p.name, .any⟩ := by
  induction args generalizing known params with
  | nil =>
    obtain rfl := Except.ok.inj h
    exact ⟨[], rfl, rfl⟩
  | cons arg rest ih =>
    cases arg with
    | ident name l =>
      simp only [paramsOf] at h
      split at h
      · cases h
      · split at h
        · next later read =>
          obtain rfl := Except.ok.inj h
          obtain ⟨ps, rfl, rfl⟩ := ih read
          exact ⟨⟨name, l⟩ :: ps, rfl, rfl⟩
        · cases h
    | call | int | char | str | cond => cases h

theorem ofForm_of_defines {form : Node} {w : Declaration} (h : form.Defines w) :
    ofForm form = .ok w.definition := by
  cases h with
  | @defun head written params headLoc writtenLoc paramsLoc body l keyword free distinct =>
    have read : paramsOf (Text.toLower written) [] (params.map fun p => .ident p.name p.loc) =
        .ok (params.map fun p => ⟨p.name, .any⟩) := paramsOf_idents distinct (by simp)
    simp [ofForm, keyword, ofMembers, free, ofParts, read, bodyOf, Declaration.definition,
      Function.comp_def]

/-- A form defines what it is read as. -/
theorem defines_of_ofForm {form : Node} {d : Definition} (h : ofForm form = .ok d) :
    ∃ w, form.Defines w ∧ d = w.definition := by
  obtain ⟨head, headLoc, written, writtenLoc, args, argsLoc, body, l, params, rfl, keyword, free,
    read, rfl⟩ := ofForm_eq_ok h
  have distinct := (paramsOf_names read).1
  obtain ⟨ps, rfl, rfl⟩ := idents_of_paramsOf read
  refine ⟨_, .defun headLoc writtenLoc argsLoc body l keyword free ?_, ?_⟩
  · simpa [Function.comp_def] using distinct
  · simp [Declaration.definition, Function.comp_def]

end Definition

/-- Forms that each define a function are those of a list of declarations. -/
theorem exists_defines_iff {forms : List Node} :
    (∃ ws, List.Forall₂ Node.Defines forms ws) ↔ ∀ form ∈ forms, ∃ w, form.Defines w := by
  induction forms with
  | nil => simp
  | cons form rest ih =>
    rw [List.forall_mem_cons, ← ih]
    constructor
    · rintro ⟨_, _ | ⟨first, later⟩⟩
      exact ⟨⟨_, first⟩, _, later⟩
    · rintro ⟨⟨w, first⟩, ws, later⟩
      exact ⟨w :: ws, .cons first later⟩

theorem toLower_name_of_defines {forms : List Node} {ws : List Declaration}
    (defines : List.Forall₂ Node.Defines forms ws) :
    ∀ w ∈ ws, Text.toLower w.name = w.name := by
  induction defines with
  | nil => simp
  | cons first later ih =>
    refine List.forall_mem_cons.2 ⟨?_, ih⟩
    cases first
    exact Text.toLower_toLower _

/-! ## Insertion -/

namespace SymbolTable

variable {t : SymbolTable} {d : Definition} {ws : List Declaration}

theorem insertEntry_cons_same {e : Entry} (same : e.name = d.name) (rest : List Entry) :
    insertEntry d (e :: rest) = ⟨d, e.listed⟩ :: rest := by
  simp [insertEntry, same]

theorem insertEntry_cons_other {e : Entry} (other : e.name ≠ d.name) (rest : List Entry) :
    insertEntry d (e :: rest) = e :: insertEntry d rest := by
  simp [insertEntry, other]

/-- An insertion changes what is found under one name only. -/
theorem get?_insert (t : SymbolTable) (d : Definition) (name : String) :
    (t.insert d).get? name = if d.name = name then some d else t.get? name := by
  obtain ⟨entries⟩ := t
  simp only [insert, get?]
  induction entries with
  | nil => by_cases asked : d.name = name <;> simp [insertEntry, Entry.name, asked]
  | cons e rest ih =>
    by_cases same : e.name = d.name
    · rw [insertEntry_cons_same same, List.find?_cons, List.find?_cons, same, Entry.name]
      by_cases asked : d.name = name
      · simp [asked]
      · simp only [beq_false_of_ne asked, asked, if_false]
    · rw [insertEntry_cons_other same, List.find?_cons, List.find?_cons]
      by_cases first : e.name = name
      · have other : d.name ≠ name := fun h => same (first.trans h.symm)
        simp [first, other]
      · simp only [beq_false_of_ne first, ih]

/-- The names of listed entries after an insertion, where nothing that is not listed has the name of
the definition. -/
theorem listedNames_insertEntry {entries : List Entry} (function : d.isBuiltin = false)
    (listed : ∀ e ∈ entries, e.name = d.name → e.listed = true) :
    ((insertEntry d entries).filter (·.listed)).map (·.name) =
      if d.name ∈ (entries.filter (·.listed)).map (·.name) then
        (entries.filter (·.listed)).map (·.name)
      else (entries.filter (·.listed)).map (·.name) ++ [d.name] := by
  induction entries with
  | nil => simp [insertEntry, function, Entry.name]
  | cons e rest ih =>
    obtain ⟨first, later⟩ := List.forall_mem_cons.1 listed
    by_cases same : e.name = d.name
    · have shown := first same
      rw [insertEntry_cons_same same, shown, List.filter_cons_of_pos rfl,
        List.filter_cons_of_pos shown, List.map_cons, List.map_cons, same, Entry.name,
        if_pos List.mem_cons_self]
    · rw [insertEntry_cons_other same]
      by_cases shown : e.listed = true
      · have other : ¬ d.name = e.name := fun h => same h.symm
        rw [List.filter_cons_of_pos shown, List.filter_cons_of_pos shown, List.map_cons,
          List.map_cons, ih later]
        simp only [List.mem_cons, other, false_or]
        split <;> rfl
      · rw [List.filter_cons_of_neg shown, List.filter_cons_of_neg shown, ih later]

/-- The names of the functions of a program stay where they are, and a new one comes last. -/
theorem Sound.names_insert (h : t.Sound) (hd : d.IsFunction) :
    (t.insert d).functions.map (·.name) =
      if d.name ∈ t.functions.map (·.name) then t.functions.map (·.name)
      else t.functions.map (·.name) ++ [d.name] := by
  rw [names_functions, names_functions]
  apply listedNames_insertEntry hd.not_builtin
  intro e he same
  exact h.listed_of_free he (same ▸ hd.free)

/-! ## What is listed -/

/-- The last declaration of a name. -/
def latest? (ws : List Declaration) (name : String) : Option Declaration :=
  ws.reverse.find? (·.name == name)

theorem latest?_append (ws : List Declaration) (w : Declaration) (name : String) :
    latest? (ws ++ [w]) name = if w.name = name then some w else latest? ws name := by
  by_cases same : w.name = name <;> simp [latest?, same]

/-- A table lists what was declared: each name once, in the order of first declarations, with what
its last declaration says. The library is as it was. -/
structure Lists (t : SymbolTable) (ws : List Declaration) : Prop where
  names : t.functions.map (·.name) = (ws.map (·.name)).eraseDups
  last : ∀ d ∈ t.functions, ∃ w, latest? ws d.name = some w ∧ d.Carries w
  operators : ∀ op ∈ Builtin.library, t.get? op.name = some (Definition.ofBuiltin op)

theorem lists_library : library.Lists [] where
  names := rfl
  last := by
    have none : library.functions = [] := rfl
    simp [none]
  operators := fun _ hop => sound_library.get?_of_mem (List.mem_map_of_mem hop)

theorem eraseDups_append_singleton (names : List String) (name : String) :
    (names ++ [name]).eraseDups =
      if name ∈ names then names.eraseDups else names.eraseDups ++ [name] := by
  have single : [name].eraseDups = [name] := by simp [List.eraseDups_cons]
  by_cases known : name ∈ names <;> simp [List.eraseDups_append, List.removeAll, known, single]

/-- A definition that is added is listed with what it declares. -/
theorem Lists.insert (h : t.Lists ws) (sound : t.Sound) {form : Node} {w : Declaration}
    (defines : form.Defines w) : (t.insert w.definition).Lists (ws ++ [w]) := by
  have function := Definition.isFunction_ofForm (Definition.ofForm_of_defines defines)
  have sound' := sound.insert function
  refine ⟨?_, ?_, ?_⟩
  · rw [sound.names_insert function, h.names, List.map_append, List.map_singleton,
      eraseDups_append_singleton]
    simp only [List.mem_eraseDups]
    rfl
  · intro d hd
    have found := sound'.get?_of_mem_functions hd
    -- What is found under a name is the new definition or was found there before.
    rw [get?_insert] at found
    rw [latest?_append]
    split at found
    · next same =>
      obtain rfl := Option.some.inj found
      exact ⟨w, if_pos rfl, w.carries_definition⟩
    · next other =>
      have listed := sound.mem_functions_of_get? found (sound'.isFunction hd).not_builtin
      have other' : w.name ≠ d.name := other
      rw [if_neg other']
      exact h.last d listed
  · intro op hop
    -- The new definition is a function, and functions do not have the names of operators.
    have added : w.definition ∈ (t.insert w.definition).functions :=
      sound'.mem_functions_of_get? ((get?_insert ..).trans (if_pos rfl)) function.not_builtin
    rw [get?_insert, if_neg (sound'.name_ne_of_library added hop).symm, h.operators op hop]

/-- Forms that define functions are put into a table, which then lists them too. -/
theorem Lists.insertForms (h : t.Lists ws) (sound : t.Sound) {forms : List Node}
    {more : List Declaration} (defines : List.Forall₂ Node.Defines forms more) :
    ∃ u, t.insertForms forms = .ok u ∧ u.Lists (ws ++ more) := by
  induction defines generalizing t ws with
  | nil => exact ⟨t, rfl, by rwa [List.append_nil]⟩
  | @cons form w forms more first later ih =>
    have read := Definition.ofForm_of_defines first
    obtain ⟨u, build, lists⟩ :=
      ih (h.insert sound first) (sound.insert (Definition.isFunction_ofForm read))
    refine ⟨u, ?_, by rwa [List.append_assoc] at lists⟩
    simp only [SymbolTable.insertForms, read, build]

theorem defines_of_insertForms {forms : List Node} {u : SymbolTable}
    (build : t.insertForms forms = .ok u) : ∃ ws, List.Forall₂ Node.Defines forms ws := by
  induction forms generalizing t with
  | nil => exact ⟨[], .nil⟩
  | cons form rest ih =>
    simp only [SymbolTable.insertForms] at build
    split at build
    · next d read =>
      obtain ⟨w, defines, -⟩ := Definition.defines_of_ofForm read
      obtain ⟨ws, later⟩ := ih build
      exact ⟨w :: ws, .cons defines later⟩
    · cases build

/-- The table of a program lists what its forms declare. -/
theorem lists_ofForms {forms : List Node} (build : ofForms forms = .ok t) :
    ∃ ws, List.Forall₂ Node.Defines forms ws ∧ t.Lists ws := by
  obtain ⟨ws, defines⟩ := defines_of_insertForms build
  obtain ⟨u, build', lists⟩ := lists_library.insertForms sound_library defines
  obtain rfl := Except.ok.inj (build.symm.trans build')
  exact ⟨ws, defines, lists⟩

/-- A round of inference changes types only. -/
theorem Lists.round (h : t.Lists ws) (sound : t.Sound) : (Inference.round t).Lists ws := by
  have functions : (Inference.round t).functions = t.functions.map (Inference.refine t) :=
    Inference.functions_iterate sound 1
  refine ⟨?_, ?_, ?_⟩
  · simpa [functions, Function.comp_def] using h.names
  · intro d hd
    rw [functions] at hd
    obtain ⟨old, hold, rfl⟩ := List.mem_map.1 hd
    obtain ⟨w, latest, carries⟩ := h.last old hold
    refine ⟨w, by rwa [Inference.refine_name], ?_, ?_, ?_⟩
    · rw [Inference.refine_params, carries.params]
    · rw [Inference.refine_body, carries.body]
    · rw [Inference.refine_loc, carries.loc]
  · intro op hop
    have found : (Inference.round t).get? op.name = (t.get? op.name).map (Inference.refine t) :=
      Inference.get?_iterate sound 1 op.name
    rw [found, h.operators op hop, Option.map_some, Inference.refine_of_isBuiltin t rfl]

theorem Lists.iterate (h : t.Lists ws) (sound : t.Sound) (n : Nat) :
    (Inference.round^[n] t).Lists ws := by
  induction n with
  | zero => exact h
  | succ n ih =>
    rw [Function.iterate_succ_apply']
    exact ih.round (Inference.sound_iterate sound n)

/-- The names of the functions of a program are in lower case. -/
theorem Lists.toLower_name (h : t.Lists ws) {forms : List Node}
    (defines : List.Forall₂ Node.Defines forms ws) (hd : d ∈ t.functions) :
    Text.toLower d.name = d.name := by
  obtain ⟨w, latest, -⟩ := h.last d hd
  have named : w.name = d.name := by simpa using List.find?_some latest
  have member : w ∈ ws := by simpa using List.mem_of_find?_eq_some latest
  rw [← named]
  exact toLower_name_of_defines defines w member

/-- Forms make a table if each of them defines a function. Then, before and after any number of
rounds, the table lists every name that is defined once, in the order of first definitions, with the
parameters, the body and the place of the last one. Names are found in any case, the operators of the
library are what they were, and nothing else is in the table. -/
theorem ofForms_lists (forms : List Node) :
    ((∃ t, ofForms forms = .ok t) ↔ ∀ form ∈ forms, ∃ w, form.Defines w) ∧
    ∀ t, ofForms forms = .ok t → ∃ ws, List.Forall₂ Node.Defines forms ws ∧
      ∀ n u, Inference.round^[n] t = u →
        (u.functions.map (·.name)).Nodup ∧
        u.functions.map (·.name) = (ws.map (·.name)).eraseDups ∧
        (∀ d ∈ u.functions, ∃ w, latest? ws d.name = some w ∧ d.params.map (·.name) = w.params ∧
          d.body = some w.body ∧ d.loc = some w.loc ∧ u.lookup d.name = some d) ∧
        (∀ name d, u.lookup name = some d ↔
          (∃ e ∈ u.entries, e.definition = d) ∧ d.name = Text.toLower name) ∧
        (∀ op ∈ Builtin.library, u.lookup op.name = some (Definition.ofBuiltin op)) ∧
        u.builtins = Builtin.library.map Definition.ofBuiltin ∧
        (u.entries.map (·.name)).Nodup ∧
        ∀ e ∈ u.entries, e.definition ∈ u.functions ∨
          ∃ op ∈ Builtin.library, e.definition = Definition.ofBuiltin op := by
  refine ⟨⟨?_, ?_⟩, ?_⟩
  · rintro ⟨t, build⟩
    exact exists_defines_iff.1 (defines_of_insertForms build)
  · intro each
    obtain ⟨ws, defines⟩ := exists_defines_iff.2 each
    obtain ⟨t, build, -⟩ := lists_library.insertForms sound_library defines
    exact ⟨t, build⟩
  · intro t build
    obtain ⟨ws, defines, lists⟩ := lists_ofForms build
    refine ⟨ws, defines, ?_⟩
    rintro n u rfl
    have start := sound_ofForms build
    have sound := Inference.sound_iterate start n
    have lists := lists.iterate start n
    refine ⟨sound.nodup_functions, lists.names, ?_, fun _ _ => sound.get?_eq_some_iff, ?_, ?_,
      sound.distinct, ?_⟩
    · intro d hd
      obtain ⟨w, latest, carries⟩ := lists.last d hd
      refine ⟨w, latest, carries.params, carries.body, carries.loc, ?_⟩
      rw [lookup, lists.toLower_name defines hd, sound.get?_of_mem_functions hd]
    · intro op hop
      have small : ∀ op ∈ Builtin.library, Text.toLower op.name = op.name := by decide +kernel
      rw [lookup, small op hop, lists.operators op hop]
    · rw [builtins, List.filterMap_congr lists.operators]
      exact List.filterMap_eq_map_iff_forall_eq_some.2 fun _ _ => rfl
    · intro e he
      cases listed : e.listed with
      | true => exact .inl (List.mem_map_of_mem (List.mem_filter.2 ⟨he, listed⟩))
      | false => exact .inr (sound.library e he listed)

open Sample

/-- Three definitions of two functions; the second one of `f` has other parameters. -/
def redefinedForms : List Node :=
  [defun "f" ["x"] (name "x"), defun "G" ["y"] (form [name "F", name "y", .int 1 here]),
   defun "f" ["a", "b"] (form [name "+", name "a", name "b"])]

theorem ofForms_lists_redefined : ∃ t, ofForms redefinedForms = .ok t ∧
    (∀ form ∈ redefinedForms, ∃ w, form.Defines w) ∧
    ∃ ws, List.Forall₂ Node.Defines redefinedForms ws ∧
      (ws.map (·.name)).eraseDups = ["f", "g"] ∧
      (∃ w, latest? ws "f" = some w ∧ w.params = ["a", "b"]) ∧
      (Inference.round^[2] t).lookup "if" = some (Definition.ofBuiltin .choice) := by
  obtain ⟨t, build, listed⟩ : ∃ t, ofForms redefinedForms = .ok t ∧
      t.functions.map (fun d => (d.name, d.params.map (·.name))) =
        [("f", ["a", "b"]), ("g", ["y"])] :=
    exists_eq_ok (by decide +kernel)
  obtain ⟨written, lists⟩ := ofForms_lists redefinedForms
  obtain ⟨ws, defines, rounds⟩ := lists t build
  obtain ⟨-, names, last, -⟩ := rounds 0 t rfl
  obtain ⟨-, -, -, -, operators, -⟩ := rounds 2 _ rfl
  obtain ⟨f, hf, shown⟩ : ∃ d ∈ t.functions,
      (d.name, d.params.map (·.name)) = ("f", ["a", "b"]) := by
    rw [← List.mem_map, listed]
    exact List.mem_cons_self
  obtain ⟨named, params⟩ := Prod.mk.inj shown
  obtain ⟨w, latest, same, -⟩ := last f hf
  refine ⟨t, build, written.1 ⟨t, build⟩, ws, defines, ?_, ⟨w, named ▸ latest, same ▸ params⟩,
    operators .choice (by decide)⟩
  rw [← names]
  simpa [Function.comp_def] using congrArg (List.map Prod.fst) listed

end SymbolTable

end LittleLisp
