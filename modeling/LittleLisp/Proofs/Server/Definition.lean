import LittleLisp.Proofs.Lowering.Unit
import LittleLisp.Proofs.Server.History
import LittleLisp.Proofs.Server.Mention
import LittleLisp.Proofs.SymbolTable.Listing

/-!
# Going to a definition

The table of a program and the search for a definition both take the last definition of a name, in
any case, but they do not compare names alike. The table has names in lower case. The search takes
names that fold to the same, and there are characters that fold alike and differ in lower case, such
as the letters `s` and `ſ`, or the other way round, such as `i` and `İ`. So the place that is answered
is that of the function that the table finds exactly if the last definitions by both comparisons are
the same (`definition_agrees_iff`), as they are for all names in which folding is lower case.
-/

namespace LittleLisp

open Server (identsOf)
open Node (identTokens)

/-! ## Names of definitions -/

/-- The names of the functions that forms define, where they are written. -/
def Node.defunNames (forms : List Node) : List Node.Written :=
  forms.filterMap Node.defunName?

open Node (defunNames)

theorem Node.mem_identsOf_of_defunName? {form : Node} {w : Node.Written}
    (h : form.defunName? = some w) : w ∈ identsOf form := by
  unfold Node.defunName? at h
  split at h
  · next head headLoc name l rest _ =>
    split at h
    · obtain rfl := Option.some.inj h
      rw [Node.identsOf_call, List.flatMap_cons, List.flatMap_cons]
      exact List.mem_append_right _ (List.mem_append_left _ List.mem_cons_self)
    · cases h
  · cases h

theorem Node.Defines.defunName? {form : Node} {x : Declaration} (h : form.Defines x) :
    ∃ w, form.defunName? = some w ∧ x.name = Text.toLower w.name := by
  cases h with
  | defun headLoc writtenLoc paramsLoc body l keyword => exact ⟨_, if_pos keyword, rfl⟩

/-- Declarations have the names that are written, in lower case. -/
theorem Node.names_of_defines {forms : List Node} {xs : List Declaration}
    (defines : List.Forall₂ Node.Defines forms xs) :
    xs.map (·.name) = (defunNames forms).map fun w => Text.toLower w.name := by
  induction defines with
  | nil => rfl
  | cons first later ih =>
    obtain ⟨w, written, name⟩ := first.defunName?
    rw [defunNames, List.filterMap_cons_some written, List.map_cons, List.map_cons, name, ih]
    rfl

/-- A function of the program is found under a name exactly if it is defined under this name in lower
case. -/
theorem CompiledUnit.exists_lookup_iff {file : String} {forms : List Node} {s : Settings}
    {u : CompiledUnit} (compiled : (CompiledUnit.ofForms file forms s).result = .ok u)
    (name : String) :
    (∃ f ∈ u.table.functions, u.table.lookup name = some f) ↔
      ∃ w ∈ defunNames forms, Text.toLower w.name = Text.toLower name := by
  obtain ⟨t, build, table, -⟩ := CompiledUnit.ofForms_eq_ok compiled
  have sound : u.table.Sound :=
    table ▸ Inference.sound_infer (SymbolTable.sound_ofForms build) s.maxRounds
  obtain ⟨xs, defines, lists⟩ := SymbolTable.lists_ofForms build
  have listed : u.table.functions.map (·.name) = (xs.map (·.name)).eraseDups := by
    rw [table, Inference.infer, Inference.table_run (SymbolTable.sound_ofForms build)]
    exact (lists.iterate (SymbolTable.sound_ofForms build) _).names
  have names : Text.toLower name ∈ u.table.functions.map (·.name) ↔
      ∃ w ∈ defunNames forms, Text.toLower w.name = Text.toLower name := by
    rw [listed, List.mem_eraseDups, Node.names_of_defines defines, List.mem_map]
  rw [← names, List.mem_map]
  constructor
  · rintro ⟨f, hf, found⟩
    exact ⟨f, hf, (sound.get?_eq_some_iff.1 found).2⟩
  · rintro ⟨f, hf, named⟩
    refine ⟨f, hf, ?_⟩
    rw [SymbolTable.lookup, ← named]
    exact sound.get?_of_mem_functions hf

/-! ## Comparisons -/

namespace Text

/-- Names in which folding is lower case are the same in one way if they are in the other. -/
theorem sameFolded_eq_toLower {s t : String} (hs : ∀ c ∈ s.toList, fold c = lower c)
    (ht : ∀ c ∈ t.toList, fold c = lower c) : sameFolded s t = (toLower s == toLower t) := by
  have lists : (toLower s = toLower t) ↔ s.toList.map lower = t.toList.map lower := by
    rw [toLower, toLower, ← String.toList_inj, String.toList_map, String.toList_map]
  rw [sameFolded, List.map_congr_left hs, List.map_congr_left ht, Bool.eq_iff_iff, beq_iff_eq,
    beq_iff_eq, lists]

end Text

namespace Server

/-- The name in the last definition of a function whose name is the same in lower case. -/
def lastLowered? (forms : List Node) (name : String) : Option Node.Written :=
  ((defunNames forms).filter fun w => Text.toLower w.name == Text.toLower name).getLast?

/-- The name in the last definition of a function whose name folds to the same. -/
def lastFolded? (forms : List Node) (name : String) : Option Node.Written :=
  ((defunNames forms).filter fun w => Text.sameFolded w.name name).getLast?

/-- The answer that a name is written at a place, or that there is none. -/
def placeOf (uri : String) : Option Node.Written → Result
  | some w => .place uri (Range.ofLocation w.loc)
  | none => .nothing

/-- An answer agrees with a table: it is the place of the last definition of the name in lower case,
and it is nothing exactly if the table has no function of the program under this name. -/
structure Compiled.Agrees (k : Compiled) (uri name : String) (answer : Result) : Prop where
  place : answer = placeOf uri (lastLowered? k.forms name)
  null : answer = .nothing ↔ ¬ ∃ f ∈ k.table.functions, k.table.lookup name = some f

/-! ## Documents that compile -/

variable {settings : Settings} {history : List Event} {uri : String} {d : Document}

/-- A text that compiles is read and makes a unit. -/
theorem Delivery.outcome_eq_ok {x : Delivery} {forms : List Node} {u : CompiledUnit}
    (h : x.outcome = .ok (forms, u)) :
    Node.parse x.file (.ofString x.text) = .ok forms ∧
      (CompiledUnit.ofForms x.file forms x.settings).result = .ok u := by
  unfold outcome Document.compile at h
  split at h
  · cases h
  · next trees read =>
    simp only at h
    cases made : (CompiledUnit.ofForms x.file trees x.settings).result with
    | error problem =>
      rw [made] at h
      cases h
    | ok v =>
      rw [made] at h
      cases h
      exact ⟨read, made⟩

/-- An open document without diagnostics has the trees and the table of its last text. -/
theorem compiled_of_open (opened : (after { settings } history).document? uri = some d)
    (compiles : d.diagnostics = []) :
    ∃ (x : Delivery) (u : CompiledUnit) (k : Compiled), d.compiled = some k ∧
      x.outcome = .ok (k.forms, u) ∧ k.table = u.table := by
  obtain ⟨-, opening, later, -, -, -, reflects, -⟩ := remembered_of_open settings history opened
  obtain ⟨x, last, same⟩ := Option.map_eq_some_iff.1 reflects.diagnostics
  obtain ⟨before, deliveries⟩ := List.getLast?_eq_some_iff.1 last
  have compiled := reflects.compiled
  rw [compiles] at same
  cases result : x.outcome with
  | error problem =>
    simp only [Delivery.diagnostics, result] at same
    cases same
  | ok made =>
    obtain ⟨forms, u⟩ := made
    have known : x.compiled? = some ⟨forms, u.table⟩ := by simp only [Delivery.compiled?, result]
    rw [deliveries, List.filterMap_append, List.filterMap_cons_some known, List.filterMap_nil,
      List.getLast?_concat] at compiled
    exact ⟨x, u, _, compiled, result, rfl⟩

/-! ## Answers -/

theorem start_ofLocation (l : Location) :
    (Range.ofLocation l).start = ⟨l.line - 1, l.col - 1⟩ := by
  unfold Range.ofLocation
  split <;> rfl

/-- Names that are written in different places have different ranges. -/
theorem eq_of_ofLocation_eq {forms : List Node}
    (ordered : (identTokens forms).Pairwise Token.Before) {v w : Node.Written}
    (hv : v ∈ forms.flatMap identsOf) (hw : w ∈ forms.flatMap identsOf)
    (same : Range.ofLocation v.loc = Range.ofLocation w.loc) : v = w := by
  have distinct : ((forms.flatMap identsOf).map fun w => w.loc.start).Nodup := by
    rw [List.Nodup, List.pairwise_map]
    exact (List.pairwise_map.1 ordered).imp fun before => before.start.ne
  have start : v.loc.start = w.loc.start := by
    have starts := congrArg Range.start same
    rw [start_ofLocation, start_ofLocation] at starts
    obtain ⟨line, col⟩ := Cursor.mk.inj starts
    exact congrArg₂ Position.mk (by omega) (by omega)
  exact List.inj_on_of_nodup_map distinct hv hw start

/-- The last name of some that forms define is an identifier of these forms. -/
theorem mem_identsOf_of_getLast? {forms : List Node} {p : Node.Written → Bool} {w : Node.Written}
    (h : ((defunNames forms).filter p).getLast? = some w) : w ∈ forms.flatMap identsOf := by
  obtain ⟨form, hform, named⟩ :=
    List.mem_filterMap.1 (List.mem_filter.1 (List.mem_of_getLast? h)).1
  exact List.mem_flatMap.2 ⟨form, hform, Node.mem_identsOf_of_defunName? named⟩

theorem placeOf_eq_nothing_iff {o : Option Node.Written} : placeOf uri o = .nothing ↔ o = none := by
  cases o <;> simp [placeOf]

theorem placeOf_inj {forms : List Node} (ordered : (identTokens forms).Pairwise Token.Before)
    {o o' : Option Node.Written} (ho : ∀ w ∈ o, w ∈ forms.flatMap identsOf)
    (ho' : ∀ w ∈ o', w ∈ forms.flatMap identsOf) : placeOf uri o = placeOf uri o' ↔ o = o' := by
  refine ⟨fun same => ?_, fun same => same ▸ rfl⟩
  cases o with
  | none => exact (placeOf_eq_nothing_iff.1 same.symm).symm
  | some v =>
    cases o' with
    | none => cases same
    | some w =>
      have ranges := (Result.place.inj same).2
      rw [eq_of_ofLocation_eq ordered (ho v rfl) (ho' w rfl) ranges]

theorem lastLowered?_eq_none_iff {forms : List Node} {name : String} :
    lastLowered? forms name = none ↔
      ¬ ∃ w ∈ defunNames forms, Text.toLower w.name = Text.toLower name := by
  simp [lastLowered?]

/-- The answer about an identifier that is no parameter: the last definition whose name folds to the
same. -/
theorem definition_eq {k : Compiled} (known : d.compiled = some k) {c : Cursor} {m : Mention}
    (under : mentionAt? k.forms c = some m) (free : m.form.defunParam? m.name = none) :
    d.definition uri c = placeOf uri (lastFolded? k.forms m.name) := by
  have forms : d.forms = k.forms := by rw [Document.forms, known]; rfl
  have declared : declarationOf? k.forms m = lastFolded? k.forms m.name := by
    rw [declarationOf?, free]
    rfl
  rw [Document.definition, forms, under, Option.bind_some, declared]
  cases lastFolded? k.forms m.name <;> rfl

/-- The place of a definition agrees with the table if it is that of the last definition of the name
in lower case. -/
theorem Compiled.agrees_iff {file : String} {s : Settings} {u : CompiledUnit} {k : Compiled}
    (compiled : (CompiledUnit.ofForms file k.forms s).result = .ok u) (table : k.table = u.table)
    (ordered : (identTokens k.forms).Pairwise Token.Before) {name : String}
    {o : Option Node.Written} (ho : ∀ w ∈ o, w ∈ k.forms.flatMap identsOf) :
    k.Agrees uri name (placeOf uri o) ↔ o = lastLowered? k.forms name := by
  constructor
  · intro agrees
    exact (placeOf_inj ordered ho fun w hw => mem_identsOf_of_getLast? hw).1 agrees.place
  · rintro rfl
    refine ⟨rfl, ?_⟩
    rw [placeOf_eq_nothing_iff, lastLowered?_eq_none_iff, table,
      CompiledUnit.exists_lookup_iff compiled]

/-- Where folding is lower case, both comparisons have the same last definition. -/
theorem lastFolded?_eq_lastLowered? {forms : List Node} {name : String}
    (plain : ∀ c ∈ name.toList, Text.fold c = Text.lower c)
    (each : ∀ w ∈ defunNames forms, ∀ c ∈ w.name.toList, Text.fold c = Text.lower c) :
    lastFolded? forms name = lastLowered? forms name := by
  rw [lastFolded?, lastLowered?,
    List.filter_congr fun w hw => Text.sameFolded_eq_toLower (each w hw) plain]

/-- **Going to a definition.** In an open document whose last text compiled, the answer about an
identifier that is no parameter of its form is the last definition whose name folds to the same. It
agrees with the table exactly if that is the last definition of the name in lower case, and it does if
folding is lower case in all these names. -/
theorem definition_agrees_iff (opened : (after { settings } history).document? uri = some d)
    (compiles : d.diagnostics = []) {form : Node} (hform : form ∈ d.forms) {w : Node.Written}
    (hw : w ∈ identsOf form) (free : form.defunParam? w.name = none) {c : Cursor}
    (under : (Range.ofLocation w.loc).contains c = true) (tree : FileTree) :
    ∃ k answer, d.compiled = some k ∧
      ((after { settings } history).handle tree (.definition uri c)).2.result = .ok answer ∧
      answer = placeOf uri (lastFolded? k.forms w.name) ∧
      (k.Agrees uri w.name answer ↔
        lastFolded? k.forms w.name = lastLowered? k.forms w.name) ∧
      ((∀ v ∈ w :: defunNames k.forms, ∀ c ∈ v.name.toList, Text.fold c = Text.lower c) →
        k.Agrees uri w.name answer) := by
  obtain ⟨x, u, k, known, outcome, table⟩ := compiled_of_open opened compiles
  obtain ⟨parsed, made⟩ := Delivery.outcome_eq_ok outcome
  have forms : d.forms = k.forms := by rw [Document.forms, known]; rfl
  rw [forms] at hform
  have found := mentionAt?_eq_some parsed hform hw under
  have ordered := (Node.ordered_of_parse parsed).1
  have agrees : k.Agrees uri w.name (placeOf uri (lastFolded? k.forms w.name)) ↔
      lastFolded? k.forms w.name = lastLowered? k.forms w.name :=
    Compiled.agrees_iff made table ordered fun v hv => mem_identsOf_of_getLast? hv
  refine ⟨k, _, known, ?_, rfl, agrees, fun plain => agrees.2 ?_⟩
  · rw [Server.handle, opened, Option.map_some, Option.getD_some, definition_eq known found free]
  · obtain ⟨own, others⟩ := List.forall_mem_cons.1 plain
    exact lastFolded?_eq_lastLowered? own others

/-! ## Two documents -/

/-- A text of a document is opened. -/
def opening (text : String) : List Event :=
  [⟨.empty, .didOpen "file:///a" 1 text⟩]

/-- The document compiles, and an identifier of this name is under the cursor and no parameter. -/
def Document.mentions (d : Document) (c : Cursor) (name : String) : Bool :=
  d.diagnostics.isEmpty && d.forms.any fun form =>
    (form.defunParam? name).isNone &&
      (identsOf form).any fun w => w.name == name && (Range.ofLocation w.loc).contains c

theorem Document.exists_of_mentions {c : Cursor} {name : String} (h : d.mentions c name = true) :
    d.diagnostics = [] ∧ ∃ form ∈ d.forms, ∃ w ∈ identsOf form, w.name = name ∧
      form.defunParam? w.name = none ∧ (Range.ofLocation w.loc).contains c = true := by
  simp only [Document.mentions, Bool.and_eq_true, List.isEmpty_iff, List.any_eq_true,
    Option.isNone_iff_eq_none, beq_iff_eq] at h
  obtain ⟨compiles, form, hform, free, w, hw, rfl, under⟩ := h
  exact ⟨compiles, form, hform, w, hw, rfl, free, under⟩

/-- A function that is defined twice, and a cursor on a call of it. -/
def twice : List Event :=
  opening "(defun f () 1)\n(defun f () 2)\n(defun g () (f))"

theorem definition_agrees_iff_twice :
    ∃ d, (after {} twice).document? "file:///a" = some d ∧ d.mentions ⟨2, 13⟩ "f" = true ∧
      ∃ k answer, d.compiled = some k ∧
        ((after {} twice).handle .empty (.definition "file:///a" ⟨2, 13⟩)).2.result = .ok answer ∧
        answer = .place "file:///a" ⟨⟨1, 7⟩, ⟨1, 8⟩⟩ ∧ k.Agrees "file:///a" "f" answer := by
  have computed : ((after {} twice).document? "file:///a").map (fun d => (d.mentions ⟨2, 13⟩ "f",
      d.compiled.map fun k => (placeOf "file:///a" (lastFolded? k.forms "f"),
        decide (lastFolded? k.forms "f" = lastLowered? k.forms "f")))) =
      some (true, some (.place "file:///a" ⟨⟨1, 7⟩, ⟨1, 8⟩⟩, true)) := by
    decide +kernel
  obtain ⟨d, opened, known⟩ := Option.map_eq_some_iff.1 computed
  obtain ⟨mentions, trees⟩ := Prod.mk.inj known
  obtain ⟨compiles, form, hform, w, hw, named, free, under⟩ := Document.exists_of_mentions mentions
  obtain ⟨k, answer, compiled, result, place, agrees, -⟩ :=
    definition_agrees_iff opened compiles hform hw free under .empty
  rw [named] at place agrees
  rw [compiled] at trees
  obtain ⟨there, same⟩ := Prod.mk.inj (Option.some.inj trees)
  exact ⟨d, opened, mentions, k, answer, compiled, result, place.trans there,
    agrees.2 (of_decide_eq_true same)⟩

/-- Two functions whose names fold alike and differ in lower case, and a cursor on a call of the first
one. -/
def alike : List Event :=
  opening "(defun s () 1)\n(defun ſ () 2)\n(defun f () (s))"

/-- The answer is the second one, though the table has the first one under this name. -/
theorem definition_takes_folded :
    ∃ d, (after {} alike).document? "file:///a" = some d ∧ d.mentions ⟨2, 13⟩ "s" = true ∧
      ∃ k answer, d.compiled = some k ∧
        ((after {} alike).handle .empty (.definition "file:///a" ⟨2, 13⟩)).2.result = .ok answer ∧
        answer = .place "file:///a" ⟨⟨1, 7⟩, ⟨1, 8⟩⟩ ∧
        placeOf "file:///a" (lastLowered? k.forms "s") = .place "file:///a" ⟨⟨0, 7⟩, ⟨0, 8⟩⟩ ∧
        ¬ k.Agrees "file:///a" "s" answer := by
  have computed : ((after {} alike).document? "file:///a").map (fun d => (d.mentions ⟨2, 13⟩ "s",
      d.definition "file:///a" ⟨2, 13⟩,
      d.compiled.map fun k => placeOf "file:///a" (lastLowered? k.forms "s"))) =
      some (true, .place "file:///a" ⟨⟨1, 7⟩, ⟨1, 8⟩⟩,
        some (.place "file:///a" ⟨⟨0, 7⟩, ⟨0, 8⟩⟩)) := by
    decide +kernel
  obtain ⟨d, opened, known⟩ := Option.map_eq_some_iff.1 computed
  obtain ⟨mentions, known⟩ := Prod.mk.inj known
  obtain ⟨answer, trees⟩ := Prod.mk.inj known
  obtain ⟨k, compiled, lowered⟩ := Option.map_eq_some_iff.1 trees
  refine ⟨d, opened, mentions, k, _, compiled, ?_, answer, lowered, ?_⟩
  · rw [Server.handle, opened, Option.map_some, Option.getD_some]
  · intro agrees
    have place := agrees.place
    rw [answer, lowered] at place
    cases place

end Server

end LittleLisp
