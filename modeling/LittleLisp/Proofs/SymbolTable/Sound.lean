import LittleLisp.Inference
import Mathlib.Data.List.Nodup

/-!
# Tables of programs

What holds of the table of every program, before and after any number of rounds of inference: names
are distinct, what is not listed is an operator of the library as it was at the start, and what is
listed is a function with a body, parameters of distinct names and a name that is not reserved.
-/

namespace LittleLisp

/-- What is computed from a result tells that there is one. -/
theorem exists_eq_ok {ε α β : Type} {r : Except ε α} {g : α → β} {b : β}
    (h : r.toOption.map g = some b) : ∃ a, r = .ok a ∧ g a = b := by
  cases r with
  | ok a => exact ⟨a, rfl, Option.some.inj h⟩
  | error e => cases h

/-- What is computed from a failure tells that there is one. -/
theorem exists_eq_error {ε α β : Type} {r : Except ε α} {g : ε → β} {b : β}
    (h : (r.mapError g).map (fun _ => ()) = .error b) : ∃ e, r = .error e ∧ g e = b := by
  cases r with
  | ok a => cases h
  | error e => exact ⟨e, rfl, Except.error.inj h⟩

/-- What has a name of its own is found by it. -/
theorem find?_of_nodup {α : Type} {key : α → String} {l : List α} (nodup : (l.map key).Nodup)
    {a : α} (ha : a ∈ l) : l.find? (key · == key a) = some a := by
  obtain ⟨b, found⟩ : ∃ b, l.find? (key · == key a) = some b := by
    rw [← Option.isSome_iff_exists, List.find?_isSome]
    exact ⟨a, ha, by simp⟩
  have same : key b = key a := by simpa using List.find?_some found
  rw [found, List.inj_on_of_nodup_map nodup (List.mem_of_find?_eq_some found) ha same]

/-- A function of a program, as a definition of the program makes it. -/
structure Definition.IsFunction (d : Definition) : Prop where
  body : d.body.isSome = true
  params : (d.params.map (·.name)).Nodup
  free : isReserved d.name = false

theorem Definition.IsFunction.not_builtin {d : Definition} (h : d.IsFunction) :
    d.isBuiltin = false := by
  simp [Definition.isBuiltin, Option.isNone_eq_false_iff.2 h.body]

@[simp] theorem Definition.isBuiltin_ofBuiltin (op : Builtin) :
    (Definition.ofBuiltin op).isBuiltin = true := rfl

@[simp] theorem Definition.operator_ofBuiltin (op : Builtin) :
    (Definition.ofBuiltin op).operator = some op := rfl

@[simp] theorem Definition.length_params_ofBuiltin (op : Builtin) :
    (Definition.ofBuiltin op).params.length = op.paramTypes.length :=
  List.length_mapIdx

/-- What holds of the table of a program. -/
structure SymbolTable.Sound (t : SymbolTable) : Prop where
  distinct : (t.entries.map (·.name)).Nodup
  library : ∀ e ∈ t.entries, e.listed = false →
    ∃ op ∈ Builtin.library, e.definition = Definition.ofBuiltin op
  program : ∀ e ∈ t.entries, e.listed = true → e.definition.IsFunction

/-- A form defines the function: its name, the names of its parameters and its body. -/
def Definition.IsWritten (d : Definition) (form : Node) : Prop :=
  ∃ e, ofForm form = .ok e ∧ e.name = d.name ∧
    e.params.map (·.name) = d.params.map (·.name) ∧ e.body = d.body

/-- Every function of the table is written in one of the forms. -/
def SymbolTable.WrittenIn (forms : List Node) (t : SymbolTable) : Prop :=
  ∀ d ∈ t.functions, ∃ form ∈ forms, d.IsWritten form

/-! ## Definitions of the program -/

namespace Definition

/-- Parameters are read as distinct names, none of them known before. -/
theorem paramsOf_names {function : String} {known : List String} {args : List Node}
    {params : List Param} (h : paramsOf function known args = .ok params) :
    (params.map (·.name)).Nodup ∧ ∀ p ∈ params, p.name ∉ known := by
  induction args generalizing known params with
  | nil =>
    obtain rfl := Except.ok.inj h
    simp
  | cons arg rest ih =>
    cases arg with
    | ident name l =>
      simp only [paramsOf] at h
      split at h
      · cases h
      · next fresh =>
        split at h
        · next later read =>
          obtain rfl := Except.ok.inj h
          obtain ⟨nodup, unknown⟩ := ih read
          have not_later : name ∉ later.map (·.name) := by
            intro hname
            obtain ⟨p, hp, rfl⟩ := List.mem_map.1 hname
            exact unknown p hp (by simp)
          refine ⟨by simp [nodup, not_later], ?_⟩
          intro p hp
          rcases List.mem_cons.1 hp with rfl | hp
          · simpa using fresh
          · exact fun hk => unknown p hp (List.mem_append_left _ hk)
        · cases h
    | call | int | char | str | cond => cases h

theorem bodyOf_eq_ok {function : String} {l : Location} {rest : List Node} {body : Node}
    (h : bodyOf function l rest = .ok body) : rest = [body] := by
  unfold bodyOf at h
  split at h
  · cases h
  · exact Except.ok.inj h ▸ rfl
  · cases h

theorem ofParts_eq_ok {name : String} {l : Location} {parts : List Node} {d : Definition}
    (h : ofParts name l parts = .ok d) :
    ∃ args argsLoc body params, parts = [.call args argsLoc, body] ∧
      paramsOf name [] args = .ok params ∧
      d = { name, params, ret := .nothing, body := some body, loc := some l } := by
  unfold ofParts at h
  split at h
  · cases h
  · split at h
    · cases h
    · next params read =>
      split at h
      · cases h
      · next body one =>
        obtain rfl := bodyOf_eq_ok one
        exact ⟨_, _, body, params, rfl, read, (Except.ok.inj h).symm⟩
  · cases h

theorem ofMembers_eq_ok {l : Location} {members : List Node} {d : Definition}
    (h : ofMembers l members = .ok d) :
    ∃ written writtenLoc parts, members = .ident written writtenLoc :: parts ∧
      isReserved (Text.toLower written) = false ∧ ofParts (Text.toLower written) l parts = .ok d := by
  unfold ofMembers at h
  split at h
  · cases h
  · simp only at h
    split at h
    · cases h
    · next free => exact ⟨_, _, _, rfl, by simpa using free, h⟩
  · cases h

/-- All that a form which defines a function can be, and what it defines. -/
theorem ofForm_eq_ok {form : Node} {d : Definition} (h : ofForm form = .ok d) :
    ∃ head headLoc written writtenLoc args argsLoc body l params,
      form = .call [.ident head headLoc, .ident written writtenLoc, .call args argsLoc, body] l ∧
      isNamed head defunWord = true ∧ isReserved (Text.toLower written) = false ∧
      paramsOf (Text.toLower written) [] args = .ok params ∧
      d = { name := Text.toLower written, params, ret := .nothing, body := some body, loc := some l } := by
  unfold ofForm at h
  split at h
  · split at h
    · split at h
      · next l members head headLoc rest keyword =>
        obtain ⟨written, writtenLoc, parts, rfl, free, h⟩ := ofMembers_eq_ok h
        obtain ⟨args, argsLoc, body, params, rfl, read, rfl⟩ := ofParts_eq_ok h
        exact ⟨head, headLoc, written, writtenLoc, args, argsLoc, body, _, params, rfl, keyword, free,
          read, rfl⟩
      · cases h
    · cases h
  · cases h

/-- A definition of the program is a function. -/
theorem isFunction_ofForm {form : Node} {d : Definition} (h : ofForm form = .ok d) :
    d.IsFunction := by
  obtain ⟨_, _, _, _, _, _, _, _, _, -, -, free, read, rfl⟩ := ofForm_eq_ok h
  exact ⟨rfl, (paramsOf_names read).1, free⟩

end Definition

/-! ## The library and insertion -/

namespace SymbolTable

theorem sound_library : library.Sound where
  distinct := by decide
  library := by
    intro e he _
    obtain ⟨op, hop, rfl⟩ := List.mem_map.1 he
    exact ⟨op, hop, rfl⟩
  program := by
    intro e he listed
    obtain ⟨op, -, rfl⟩ := List.mem_map.1 he
    cases listed

theorem isReserved_of_mem_library {op : Builtin} (h : op ∈ Builtin.library) :
    isReserved op.name = true := by
  have named : Builtin.library.any (·.name == op.name) = true :=
    List.any_eq_true.2 ⟨op, h, by simp⟩
  simp [isReserved, named]

/-- The entries after an insertion: those of other names, and one of this name. -/
theorem mem_insertEntry {d : Definition} {entries : List Entry} {e : Entry}
    (h : e ∈ insertEntry d entries) :
    e ∈ entries ∨ e = ⟨d, !d.isBuiltin⟩ ∨ ∃ old ∈ entries, old.name = d.name ∧ e = ⟨d, old.listed⟩ := by
  induction entries with
  | nil => exact Or.inr (Or.inl (List.mem_singleton.1 h))
  | cons first rest ih =>
    simp only [insertEntry] at h
    split at h
    · next same =>
      rcases List.mem_cons.1 h with rfl | h
      · exact Or.inr (Or.inr ⟨first, by simp, by simpa using same, rfl⟩)
      · exact Or.inl (List.mem_cons_of_mem _ h)
    · rcases List.mem_cons.1 h with rfl | h
      · exact Or.inl (by simp)
      · rcases ih h with h | h | ⟨old, hold, same, rfl⟩
        · exact Or.inl (List.mem_cons_of_mem _ h)
        · exact Or.inr (Or.inl h)
        · exact Or.inr (Or.inr ⟨old, List.mem_cons_of_mem _ hold, same, rfl⟩)

theorem mem_map_name_insertEntry {d : Definition} {entries : List Entry} {name : String}
    (h : name ∈ (insertEntry d entries).map (·.name)) :
    name ∈ entries.map (·.name) ∨ name = d.name := by
  obtain ⟨e, he, rfl⟩ := List.mem_map.1 h
  rcases mem_insertEntry he with he | rfl | ⟨_, _, _, rfl⟩
  · exact Or.inl (List.mem_map_of_mem he)
  · exact Or.inr rfl
  · exact Or.inr rfl

/-- Insertion keeps the names distinct. -/
theorem nodup_insertEntry {d : Definition} {entries : List Entry}
    (h : (entries.map (·.name)).Nodup) : ((insertEntry d entries).map (·.name)).Nodup := by
  induction entries with
  | nil => simp [insertEntry]
  | cons first rest ih =>
    rw [List.map_cons, List.nodup_cons] at h
    simp only [insertEntry]
    split
    · next same =>
      have : first.name = d.name := by simpa using same
      rw [List.map_cons, List.nodup_cons]
      exact ⟨fun hd => h.1 (this ▸ hd), h.2⟩
    · next other =>
      rw [List.map_cons, List.nodup_cons]
      refine ⟨fun hfirst => ?_, ih h.2⟩
      rcases mem_map_name_insertEntry hfirst with hfirst | same
      · exact h.1 hfirst
      · exact other (by simpa using same)

/-- A name that is not reserved is that of no operator of the library. -/
theorem Sound.listed_of_free {t : SymbolTable} (h : t.Sound) {e : Entry} (he : e ∈ t.entries)
    (free : isReserved e.name = false) : e.listed = true := by
  cases listed : e.listed with
  | true => rfl
  | false =>
    obtain ⟨op, hop, is_op⟩ := h.library e he listed
    have name : e.name = op.name := by rw [Entry.name, is_op]; rfl
    have reserved := isReserved_of_mem_library hop
    rw [← name, free] at reserved
    cases reserved

/-- The table stays sound when a function is defined: a function never replaces an operator of the
library, because its name is not reserved. -/
theorem Sound.insert {t : SymbolTable} (h : t.Sound) {d : Definition} (hd : d.IsFunction) :
    (t.insert d).Sound := by
  have listed_of_same {e : Entry} (he : e ∈ t.entries) (same : e.name = d.name) :
      e.listed = true := h.listed_of_free he (same ▸ hd.free)
  refine ⟨nodup_insertEntry h.distinct, ?_, ?_⟩
  · intro e he not_listed
    rcases mem_insertEntry he with he | rfl | ⟨old, hold, same, rfl⟩
    · exact h.library e he not_listed
    · simp [hd.not_builtin] at not_listed
    · rw [listed_of_same hold same] at not_listed
      cases not_listed
  · intro e he listed
    rcases mem_insertEntry he with he | rfl | ⟨old, hold, same, rfl⟩
    · exact h.program e he listed
    · exact hd
    · exact hd

theorem Sound.insertForms {t u : SymbolTable} (h : t.Sound) {forms : List Node}
    (build : t.insertForms forms = .ok u) : u.Sound := by
  induction forms generalizing t with
  | nil =>
    obtain rfl := Except.ok.inj build
    exact h
  | cons form rest ih =>
    simp only [SymbolTable.insertForms] at build
    split at build
    · next d defined => exact ih (h.insert (Definition.isFunction_ofForm defined)) build
    · cases build

/-- The table of a program is sound. -/
theorem sound_ofForms {forms : List Node} {t : SymbolTable} (build : ofForms forms = .ok t) :
    t.Sound :=
  sound_library.insertForms build

theorem mem_functions_insert {t : SymbolTable} {d e : Definition}
    (h : e ∈ (t.insert d).functions) : e ∈ t.functions ∨ e = d := by
  obtain ⟨entry, he, rfl⟩ := List.mem_map.1 h
  obtain ⟨he, listed⟩ := List.mem_filter.1 he
  rcases mem_insertEntry he with he | rfl | ⟨_, _, _, rfl⟩
  · exact .inl (List.mem_map_of_mem (List.mem_filter.2 ⟨he, listed⟩))
  · exact .inr rfl
  · exact .inr rfl

/-- The functions of a table are the earlier ones and those of the forms. -/
theorem mem_functions_insertForms {forms : List Node} {t u : SymbolTable}
    (build : t.insertForms forms = .ok u) {d : Definition} (hd : d ∈ u.functions) :
    d ∈ t.functions ∨ ∃ form ∈ forms, Definition.ofForm form = .ok d := by
  induction forms generalizing t with
  | nil =>
    obtain rfl := Except.ok.inj build
    exact .inl hd
  | cons form rest ih =>
    simp only [SymbolTable.insertForms] at build
    split at build
    · next e defined =>
      rcases ih build with earlier | ⟨later, member, written⟩
      · rcases mem_functions_insert earlier with earlier | rfl
        · exact .inl earlier
        · exact .inr ⟨form, List.mem_cons_self, defined⟩
      · exact .inr ⟨later, List.mem_cons_of_mem _ member, written⟩
    · cases build

theorem exists_form_of_mem_functions {forms : List Node} {t : SymbolTable}
    (build : ofForms forms = .ok t) {d : Definition} (hd : d ∈ t.functions) :
    ∃ form ∈ forms, Definition.ofForm form = .ok d := by
  rcases mem_functions_insertForms build hd with none | written
  · cases none
  · exact written

/-- The functions of the table of a program are written in its forms. -/
theorem writtenIn_ofForms {forms : List Node} {t : SymbolTable} (build : ofForms forms = .ok t) :
    t.WrittenIn forms := by
  intro d hd
  obtain ⟨form, member, defined⟩ := exists_form_of_mem_functions build hd
  exact ⟨form, member, d, defined, rfl, rfl, rfl⟩

/-! ## Looking up -/

/-- What is found under a name is an entry of the table of that name. -/
theorem get?_eq_some {t : SymbolTable} {name : String} {d : Definition}
    (h : t.get? name = some d) : ∃ e ∈ t.entries, e.definition = d ∧ d.name = name := by
  unfold get? at h
  obtain ⟨e, found, rfl⟩ := Option.map_eq_some_iff.1 h
  have same : e.name = name := by simpa using List.find?_some found
  exact ⟨e, List.mem_of_find?_eq_some found, rfl, same⟩

/-- What is found under a name is an entry of the table, under the name in lower case. -/
theorem lookup_eq_some {t : SymbolTable} {name : String} {d : Definition}
    (h : t.lookup name = some d) :
    ∃ e ∈ t.entries, e.definition = d ∧ d.name = Text.toLower name :=
  get?_eq_some h

/-- Every definition of the table is found under its own name. -/
theorem Sound.get?_of_mem {t : SymbolTable} (h : t.Sound) {e : Entry} (he : e ∈ t.entries) :
    t.get? e.name = some e.definition := by
  rw [get?, find?_of_nodup h.distinct he]
  rfl

/-- All that is found in a sound table is in it, under its own name. -/
theorem Sound.get?_eq_some_iff {t : SymbolTable} (h : t.Sound) {name : String} {d : Definition} :
    t.get? name = some d ↔ (∃ e ∈ t.entries, e.definition = d) ∧ d.name = name := by
  constructor
  · intro found
    obtain ⟨e, he, rfl, named⟩ := get?_eq_some found
    exact ⟨⟨e, he, rfl⟩, named⟩
  · rintro ⟨⟨e, he, rfl⟩, rfl⟩
    exact h.get?_of_mem he

/-- A definition without a body that is found is an operator of the library. -/
theorem Sound.operator_of_lookup {t : SymbolTable} (h : t.Sound) {name : String} {d : Definition}
    (found : t.lookup name = some d) (builtin : d.isBuiltin = true) :
    ∃ op ∈ Builtin.library, d = Definition.ofBuiltin op := by
  obtain ⟨e, he, rfl, -⟩ := lookup_eq_some found
  cases listed : e.listed with
  | false => exact h.library e he listed
  | true =>
    rw [(h.program e he listed).not_builtin] at builtin
    cases builtin

/-- A definition with a body that is found is a function of the program. -/
theorem Sound.mem_functions_of_get? {t : SymbolTable} (h : t.Sound) {name : String}
    {d : Definition} (found : t.get? name = some d) (function : d.isBuiltin = false) :
    d ∈ t.functions := by
  obtain ⟨e, he, rfl, -⟩ := get?_eq_some found
  cases listed : e.listed with
  | true => exact List.mem_map.2 ⟨e, List.mem_filter.2 ⟨he, listed⟩, rfl⟩
  | false =>
    obtain ⟨op, -, is_op⟩ := h.library e he listed
    rw [is_op] at function
    cases function

theorem Sound.mem_functions_of_lookup {t : SymbolTable} (h : t.Sound) {name : String}
    {d : Definition} (found : t.lookup name = some d) (function : d.isBuiltin = false) :
    d ∈ t.functions :=
  h.mem_functions_of_get? found function

theorem Sound.isFunction {t : SymbolTable} (h : t.Sound) {d : Definition} (hd : d ∈ t.functions) :
    d.IsFunction := by
  obtain ⟨e, he, rfl⟩ := List.mem_map.1 hd
  obtain ⟨he, listed⟩ := List.mem_filter.1 he
  exact h.program e he listed

/-- A function of the program is found under its name. -/
theorem Sound.get?_of_mem_functions {t : SymbolTable} (h : t.Sound) {d : Definition}
    (hd : d ∈ t.functions) : t.get? d.name = some d := by
  obtain ⟨e, he, rfl⟩ := List.mem_map.1 hd
  exact h.get?_of_mem (List.mem_filter.1 he).1

/-- Functions of the program do not have the names of library operators. -/
theorem Sound.name_ne_of_library {t : SymbolTable} (h : t.Sound) {d : Definition}
    (hd : d ∈ t.functions) {op : Builtin} (hop : op ∈ Builtin.library) : op.name ≠ d.name := by
  intro same
  have reserved := isReserved_of_mem_library hop
  rw [same, (h.isFunction hd).free] at reserved
  cases reserved

theorem names_functions (t : SymbolTable) :
    t.functions.map (·.name) = (t.entries.filter (·.listed)).map (·.name) := by
  simp [functions, Entry.name]

/-- The functions of a program have distinct names. -/
theorem Sound.nodup_functions {t : SymbolTable} (h : t.Sound) :
    (t.functions.map (·.name)).Nodup := by
  have sublist : ((t.entries.filter (·.listed)).map (·.name)).Sublist (t.entries.map (·.name)) :=
    List.filter_sublist.map _
  rw [names_functions]
  exact h.distinct.sublist sublist

end SymbolTable

/-! ## Inference -/

namespace Inference

@[simp] theorem refine_name (t : SymbolTable) (d : Definition) : (refine t d).name = d.name := by
  unfold refine
  split <;> rfl

@[simp] theorem refine_body (t : SymbolTable) (d : Definition) : (refine t d).body = d.body := by
  unfold refine
  split <;> rfl

@[simp] theorem refine_loc (t : SymbolTable) (d : Definition) : (refine t d).loc = d.loc := by
  unfold refine
  split <;> rfl

/-- Refinement gives types only: the names of the parameters stay. -/
theorem refine_params (t : SymbolTable) (d : Definition) :
    (refine t d).params.map (·.name) = d.params.map (·.name) := by
  unfold refine
  split
  · rfl
  · simp [refineParams, Function.comp_def]

theorem isFunction_refine (t : SymbolTable) {d : Definition} (h : d.IsFunction) :
    (refine t d).IsFunction :=
  ⟨by rw [refine_body]; exact h.body, by rw [refine_params]; exact h.params,
    by rw [refine_name]; exact h.free⟩

/-- A round keeps a table sound: it changes the types of listed definitions and nothing else. -/
theorem sound_round {t : SymbolTable} (h : t.Sound) : (round t).Sound := by
  have names : (round t).entries.map (·.name) = t.entries.map (·.name) := by
    simp only [round, List.map_map]
    apply List.map_congr_left
    intro e _
    simp only [Function.comp_apply]
    split
    · exact refine_name t e.definition
    · rfl
  refine ⟨by rw [names]; exact h.distinct, ?_, ?_⟩
  · intro e he not_listed
    obtain ⟨old, hold, rfl⟩ := List.mem_map.1 he
    split at not_listed
    · next listed => simp [listed] at not_listed
    · next plain =>
      rw [if_neg plain]
      exact h.library old hold not_listed
  · intro e he listed
    obtain ⟨old, hold, rfl⟩ := List.mem_map.1 he
    split at listed
    · next was_listed =>
      rw [if_pos was_listed]
      exact isFunction_refine t (h.program old hold was_listed)
    · next plain => exact absurd listed plain

/-- The functions after a round are those before it, refined. -/
theorem mem_functions_round {t : SymbolTable} {d : Definition} (h : d ∈ (round t).functions) :
    ∃ old ∈ t.functions, d = refine t old := by
  obtain ⟨e, he, rfl⟩ := List.mem_map.1 h
  obtain ⟨he, listed⟩ := List.mem_filter.1 he
  obtain ⟨old, hold, rfl⟩ := List.mem_map.1 he
  split at listed
  · next was_listed =>
    refine ⟨old.definition, List.mem_map_of_mem (List.mem_filter.2 ⟨hold, was_listed⟩), ?_⟩
    rw [if_pos was_listed]
  · next plain => exact absurd listed plain

theorem writtenIn_round {forms : List Node} {t : SymbolTable} (h : t.WrittenIn forms) :
    (round t).WrittenIn forms := by
  intro d hd
  obtain ⟨old, hold, rfl⟩ := mem_functions_round hd
  obtain ⟨form, hform, e, defined, name, params, body⟩ := h old hold
  refine ⟨form, hform, e, defined, ?_, ?_, ?_⟩
  · rw [refine_name, name]
  · rw [refine_params, params]
  · rw [refine_body, body]

/-- What every round keeps, inference keeps. -/
theorem run_of_round {P : SymbolTable → Prop} (keep : ∀ t, P t → P (round t)) {t : SymbolTable}
    (h : P t) (done left : Nat) : P (run t done left).table := by
  induction left generalizing t done with
  | zero => exact h
  | succ left ih =>
    simp only [run]
    split
    · exact keep t h
    · exact ih (keep t h) (done + 1)

theorem sound_infer {t : SymbolTable} (h : t.Sound) (max : Int) : (infer t max).table.Sound :=
  run_of_round (P := SymbolTable.Sound) (fun _ => sound_round) h 0 (limitOf max)

theorem writtenIn_infer {forms : List Node} {t : SymbolTable} (h : t.WrittenIn forms) (max : Int) :
    (infer t max).table.WrittenIn forms :=
  run_of_round (P := SymbolTable.WrittenIn forms) (fun _ => writtenIn_round) h 0 (limitOf max)

end Inference

end LittleLisp
