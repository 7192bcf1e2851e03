import LittleLisp.Proofs.Server.Definition
import LittleLisp.Proofs.Tree.WellFormed
import LittleLisp.Proofs.Tree.Induction

/-!
# Parameters under the cursor

Both what is shown about an identifier and where it is defined look at the parameters of the form
around it first. But they do not look in the same place. The place is searched in the form itself.
The type comes from the definition that the table has under the name of the form's function, and this
is the last definition of that name. So the two answers agree on whether the identifier is a parameter
exactly if the form and the last definition of its function do (`params_agree_iff`), as they always do
in the last definition itself.
-/

namespace LittleLisp

open Server (identsOf)
open Node (identTokens)

/-! ## The last definition of a function -/

namespace Node

/-- The function that a form defines: its name in lower case. -/
def functionName? (form : Node) : Option String :=
  form.defunName?.map fun w => Text.toLower w.name

/-- The last form that defines the same function as this one. -/
def latestForm? (forms : List Node) (form : Node) : Option Node :=
  forms.reverse.find? fun other => other.functionName? == form.functionName?

/-- The names of the parameters of the function that a form defines. -/
def paramNames (form : Node) : List String :=
  form.defunParams.map (·.name)

theorem Defines.functionName? {form : Node} {x : Declaration} (h : form.Defines x) :
    form.functionName? = some x.name := by
  obtain ⟨w, written, name⟩ := h.defunName?
  rw [Node.functionName?, written, Option.map_some, name]

theorem Defines.paramNames {form : Node} {x : Declaration} (h : form.Defines x) :
    form.paramNames = x.params := by
  cases h with
  | @defun head written params headLoc writtenLoc paramsLoc body l keyword =>
    have idents : (params.map fun p => (.ident p.name p.loc : Node)).filterMap ident? = params := by
      rw [List.filterMap_map]
      exact List.filterMap_some
    rw [Node.paramNames, defunParams, if_pos keyword, idents]

/-- The last declaration of a name is that of the last form that defines this name. -/
theorem exists_latestForm {forms : List Node} {xs : List Declaration}
    (defines : List.Forall₂ Defines forms xs) {name : String} {y : Declaration}
    (latest : SymbolTable.latest? xs name = some y) :
    ∃ last, (forms.reverse.find? fun other => other.functionName? == some name) = some last ∧
      last.Defines y := by
  rw [← List.forall₂_reverse_iff] at defines
  rw [SymbolTable.latest?] at latest
  generalize forms.reverse = ns at defines
  generalize xs.reverse = ys at defines latest
  induction defines with
  | nil => cases latest
  | @cons form x ns ys first _ ih =>
    rw [List.find?_cons] at latest ⊢
    rw [first.functionName?, Option.some_beq_some]
    cases same : x.name == name with
    | true =>
      rw [same] at latest
      obtain rfl := Option.some.inj latest
      exact ⟨form, rfl, first⟩
    | false =>
      rw [same] at latest
      exact ih latest

end Node

/-- Under the name of the function that a form defines, the table has the parameters of the last form
that defines it. -/
theorem CompiledUnit.exists_params {file : String} {forms : List Node} {s : Settings}
    {u : CompiledUnit} (compiled : (CompiledUnit.ofForms file forms s).result = .ok u) {form : Node}
    (hform : form ∈ forms) :
    ∃ w g last, form.defunName? = some w ∧ u.table.lookup w.name = some g ∧
      Node.latestForm? forms form = some last ∧ g.params.map (·.name) = last.paramNames := by
  obtain ⟨t, build, table, -⟩ := CompiledUnit.ofForms_eq_ok compiled
  have start := SymbolTable.sound_ofForms build
  have sound : u.table.Sound := table ▸ Inference.sound_infer start s.maxRounds
  obtain ⟨xs, defines, lists⟩ := SymbolTable.lists_ofForms build
  have lists : u.table.Lists xs := by
    rw [table, Inference.infer, Inference.table_run start]
    exact lists.iterate start _
  obtain ⟨x, first⟩ := exists_defines_iff.1 ⟨xs, defines⟩ form hform
  obtain ⟨w, written, -⟩ := first.defunName?
  obtain ⟨g, hg, found⟩ := (CompiledUnit.exists_lookup_iff compiled w.name).2
    ⟨w, List.mem_filterMap.2 ⟨form, hform, written⟩, rfl⟩
  obtain ⟨y, latest, carries⟩ := lists.last g hg
  rw [(sound.get?_eq_some_iff.1 found).2] at latest
  obtain ⟨last, shown, defined⟩ := Node.exists_latestForm defines latest
  refine ⟨w, g, last, written, found, ?_, carries.params.trans defined.paramNames.symm⟩
  rw [Node.latestForm?, Node.functionName?, written, Option.map_some, shown]

/-! ## Identifiers in different places -/

namespace Node

theorem nodup_idents {forms : List Node} (ordered : (identTokens forms).Pairwise Token.Before) :
    (forms.flatMap identsOf).Nodup := by
  have starts : ((forms.flatMap identsOf).map fun w => w.loc.start).Nodup := by
    rw [List.Nodup, List.pairwise_map]
    exact (List.pairwise_map.1 ordered).imp fun before => before.start.ne
  exact starts.of_map _

/-- The name of a function is written before its parameters. -/
theorem exists_identsOf_of_defunParams {form : Node} {w : Written} (h : w ∈ form.defunParams) :
    ∃ head v tail, form.defunName? = some v ∧ identsOf form = head :: v :: tail ∧ w ∈ tail := by
  unfold defunParams at h
  split at h
  · next head headLoc name nameLoc params paramsLoc rest l =>
    split at h
    · next keyword =>
      obtain ⟨n, hn, same⟩ := List.mem_filterMap.1 h
      have inside : w ∈ identsOf n := List.mem_filterMap.2 ⟨n, self_mem_walk n, same⟩
      refine ⟨⟨head, headLoc⟩, ⟨name, nameLoc⟩,
        params.flatMap identsOf ++ rest.flatMap identsOf, if_pos keyword, ?_, ?_⟩
      · rw [identsOf_call, List.flatMap_cons, List.flatMap_cons, List.flatMap_cons, identsOf_call]
        rfl
      · exact List.mem_append_left _ (List.mem_flatMap.2 ⟨n, hn, inside⟩)
    · cases h
  · cases h

theorem mem_identsOf_of_defunParams {form : Node} {w : Written} (h : w ∈ form.defunParams) :
    w ∈ identsOf form := by
  obtain ⟨head, v, tail, -, idents, inside⟩ := exists_identsOf_of_defunParams h
  rw [idents]
  exact List.mem_cons_of_mem _ (List.mem_cons_of_mem _ inside)

/-- A parameter is not written where the name of a function is. -/
theorem ne_of_defunName?_of_defunParams {forms : List Node}
    (ordered : (identTokens forms).Pairwise Token.Before) {form g : Node} (hform : form ∈ forms)
    (hg : g ∈ forms) {v w : Written} (named : g.defunName? = some v) (param : w ∈ form.defunParams) :
    v ≠ w := by
  rintro rfl
  obtain ⟨each, apart⟩ := List.nodup_flatMap.1 (nodup_idents ordered)
  by_cases same : form = g
  · subst same
    obtain ⟨head, name, tail, named', idents, inside⟩ := exists_identsOf_of_defunParams param
    obtain rfl := Option.some.inj (named.symm.trans named')
    have distinct := each form hform
    rw [idents] at distinct
    exact (List.nodup_cons.1 (List.nodup_cons.1 distinct).2).1 inside
  · have symmetric : Std.Symm (Function.onFun List.Disjoint identsOf) := ⟨fun _ _ h => h.symm⟩
    have disjoint := apart.forall hform hg same
    exact disjoint (mem_identsOf_of_defunParams param) (mem_identsOf_of_defunName? named)

/-- The parts of a well-formed tree are well formed. -/
theorem WellFormed.of_mem_parts {n : Node} (h : n.WellFormed) : ∀ m ∈ n.parts, m.WellFormed := by
  cases h with
  | int | char | str | ident => exact List.forall_mem_nil _
  | call each _ => exact each
  | cond conditions results _ =>
    intro m hm
    obtain ⟨c, hc, part⟩ := List.mem_flatMap.1 hm
    rcases List.mem_pair.1 part with rfl | rfl
    · exact conditions c hc
    · exact results c hc

/-- The names in a tree that can be read are names that can be read. -/
theorem isIdentifier_of_mem_identsOf {n : Node} (h : n.WellFormed) {w : Written}
    (hw : w ∈ identsOf n) : Token.IsIdentifier w.name := by
  obtain ⟨m, hm, named⟩ := List.mem_filterMap.1 hw
  have formed := forall_mem_walk (fun _ => WellFormed.of_mem_parts) h m hm
  cases m with
  | ident name loc =>
    obtain rfl := Option.some.inj named
    cases formed with
    | ident identifier => exact identifier
  | call | int | char | str | cond => cases named

end Node

/-- No name that can be read has a parenthesis in it. -/
theorem Token.IsIdentifier.bare {name : String} (h : IsIdentifier name) : '(' ∉ name.toList := by
  intro inside
  have part := h.parts _ inside
  revert part
  decide +kernel

/-! ## What the answers say -/

namespace Server

/-- What is shown says that the identifier of this name is a parameter, with its type. -/
def Result.TellsParam (r : Result) (name : String) : Prop :=
  ∃ (type : ValueType) (range : Range), r = .hover (name ++ " " ++ type.name) range

/-- The place is that of a parameter of this name, in the parameters of a form around the cursor. -/
def Result.LeadsToParam (r : Result) (forms : List Node) (uri : String) (c : Cursor)
    (name : String) : Prop :=
  ∃ form ∈ forms, (Range.ofLocation form.loc).contains c = true ∧
    ∃ w ∈ form.defunParams, w.name = name ∧ r = .place uri (Range.ofLocation w.loc)

/-- What is shown and where it is defined are about a parameter of the same name, or neither is about
a parameter. No name has a parenthesis in it. -/
def ParamsAgree (forms : List Node) (uri : String) (c : Cursor) (hover definition : Result) : Prop :=
  ∀ name : String, '(' ∉ name.toList →
    (hover.TellsParam name ↔ definition.LeadsToParam forms uri c name)

theorem not_mem_typeName (type : ValueType) :
    ' ' ∉ type.name.toList ∧ '(' ∉ type.name.toList := by
  cases type <;> decide +kernel

/-- In a line about a parameter, the type comes after the last blank. -/
theorem name_of_line {name name' : String} {type type' : ValueType}
    (same : name ++ " " ++ type.name = name' ++ " " ++ type'.name) : name = name' := by
  have chars := congrArg String.toList same
  simp only [String.toList_append, List.append_assoc] at chars
  have blank : " ".toList = [' '] := rfl
  rw [blank, List.singleton_append, List.singleton_append] at chars
  apply String.toList_injective
  rcases List.append_eq_append_iff.1 chars with ⟨more, names, types⟩ | ⟨more, names, types⟩
  · cases more with
    | nil => rw [names, List.append_nil]
    | cons c more =>
      rw [List.cons_append] at types
      have inside : ' ' ∈ type.name.toList := by
        rw [(List.cons.inj types).2]
        exact List.mem_append_right _ List.mem_cons_self
      exact absurd inside (not_mem_typeName type).1
  · cases more with
    | nil => rw [names, List.append_nil]
    | cons c more =>
      rw [List.cons_append] at types
      have inside : ' ' ∈ type'.name.toList := by
        rw [(List.cons.inj types).2]
        exact List.mem_append_right _ List.mem_cons_self
      exact absurd inside (not_mem_typeName type').1

/-- A signature is not a line about a parameter. -/
theorem signature_ne {d : Definition} {name : String} {type : ValueType}
    (bare : '(' ∉ name.toList) : d.signature ≠ name ++ " " ++ type.name := by
  intro same
  have inside : '(' ∈ d.signature.toList := by simp [Definition.signature]
  rw [same] at inside
  simp [bare, (not_mem_typeName type).2] at inside

/-- The identifier that is found is written in a form around the cursor. -/
theorem form_of_mentionAt? {forms : List Node} {c : Cursor} {m : Mention}
    (under : mentionAt? forms c = some m) :
    m.form ∈ forms ∧ (Range.ofLocation m.form.loc).contains c = true ∧
      ⟨m.name, m.loc⟩ ∈ identsOf m.form := by
  obtain ⟨form, hform, found⟩ := List.exists_of_findSome?_eq_some under
  unfold mentionIn? at found
  split at found
  · next around =>
    obtain ⟨w, last, rfl⟩ := Option.map_eq_some_iff.1 found
    exact ⟨hform, around, (List.mem_filter.1 (List.mem_of_getLast? last)).1⟩
  · cases found

section Answers

variable {d : Document} {k : Compiled} {c : Cursor} {m : Mention} {uri name : String}

theorem hover_of_mentionAt? (known : d.compiled = some k) (under : mentionAt? k.forms c = some m) :
    d.hover c =
      ((k.lineOf? m).map fun line => Result.hover line (Range.ofLocation m.loc)).getD .nothing := by
  simp only [Document.hover, known, under]
  cases k.lineOf? m <;> rfl

/-- Where there is no identifier, nothing is shown and nothing is defined. -/
theorem nothing_of_mentionAt? (known : d.compiled = some k) (free : mentionAt? k.forms c = none)
    (uri : String) : d.hover c = .nothing ∧ d.definition uri c = .nothing := by
  have forms : d.forms = k.forms := by rw [Document.forms, known]; rfl
  constructor
  · simp only [Document.hover, known, free]
  · rw [Document.definition, forms, free, Option.bind_none]

/-- What is shown about an identifier says that it is a parameter if the table's definition of the
function has it as one. -/
theorem tellsParam_iff (known : d.compiled = some k) (under : mentionAt? k.forms c = some m)
    {g : Definition} (found : k.definitionOf? m.form = some g) (bare : '(' ∉ name.toList) :
    (d.hover c).TellsParam name ↔ name = m.name ∧ m.name ∈ g.params.map (·.name) := by
  have typed : (g.paramType? m.name).isSome = true ↔ m.name ∈ g.params.map (·.name) := by
    simp [Definition.paramType?, List.find?_isSome]
  rw [hover_of_mentionAt? known under, Compiled.lineOf?, found, Option.bind_some, ← typed]
  cases g.paramType? m.name with
  | some type =>
    simp only [Option.map_some, Option.isSome_some, and_true]
    constructor
    · rintro ⟨type', range, shown⟩
      exact (name_of_line (Result.hover.inj shown).1).symm
    · rintro rfl
      exact ⟨type, _, rfl⟩
  | none =>
    simp only [Option.map_none, Option.isSome_none, Bool.false_eq_true, and_false, iff_false]
    rintro ⟨type, range, shown⟩
    -- What is shown otherwise is a signature.
    cases signature : k.table.signature? m.name with
    | none =>
      rw [signature] at shown
      cases shown
    | some line =>
      rw [signature] at shown
      obtain ⟨f, -, written⟩ := Option.map_eq_some_iff.1 signature
      exact signature_ne bare (written.trans (Result.hover.inj shown).1)

/-- The place of an identifier is that of a parameter if the form around it has it as one. -/
theorem leadsToParam_iff (known : d.compiled = some k) (under : mentionAt? k.forms c = some m)
    (ordered : (identTokens k.forms).Pairwise Token.Before) :
    (d.definition uri c).LeadsToParam k.forms uri c name ↔
      name = m.name ∧ m.name ∈ m.form.paramNames := by
  obtain ⟨hform, around, -⟩ := form_of_mentionAt? under
  have forms : d.forms = k.forms := by rw [Document.forms, known]; rfl
  have same {v w : Node.Written} (hv : ∃ n ∈ k.forms, v ∈ identsOf n)
      (hw : ∃ n ∈ k.forms, w ∈ identsOf n)
      (placed : Result.place uri (Range.ofLocation v.loc) = .place uri (Range.ofLocation w.loc)) :
      v = w :=
    eq_of_ofLocation_eq ordered (List.mem_flatMap.2 hv) (List.mem_flatMap.2 hw)
      (Result.place.inj placed).2
  cases declared : m.form.defunParam? m.name with
  | some w =>
    have answer : d.definition uri c = .place uri (Range.ofLocation w.loc) := by
      rw [Document.definition, forms, under, Option.bind_some, declarationOf?, declared]
    have param := List.mem_of_find?_eq_some declared
    have named : w.name = m.name := by simpa using List.find?_some declared
    have member : m.name ∈ m.form.paramNames := List.mem_map.2 ⟨w, param, named⟩
    rw [answer, and_iff_left member]
    constructor
    · rintro ⟨form, hform', -, w', param', rfl, placed⟩
      obtain rfl := same ⟨_, hform, Node.mem_identsOf_of_defunParams param⟩
        ⟨_, hform', Node.mem_identsOf_of_defunParams param'⟩ placed
      exact named
    · rintro rfl
      exact ⟨m.form, hform, around, w, param, named, rfl⟩
  | none =>
    have other : m.name ∉ m.form.paramNames := by
      intro member
      obtain ⟨w, param, named⟩ := List.mem_map.1 member
      exact absurd (List.find?_eq_none.1 declared w param) (by simp [named])
    rw [definition_eq known under declared, and_iff_right_of_imp fun h => absurd h other]
    simp only [other, iff_false]
    rintro ⟨form, hform', -, w, param, -, placed⟩
    cases last : lastFolded? k.forms m.name with
    | none =>
      rw [last] at placed
      cases placed
    | some v =>
      rw [last] at placed
      obtain ⟨g, hg, named⟩ :=
        List.mem_filterMap.1 (List.mem_filter.1 (List.mem_of_getLast? last)).1
      have equal := same ⟨g, hg, Node.mem_identsOf_of_defunName? named⟩
        ⟨form, hform', Node.mem_identsOf_of_defunParams param⟩ placed
      exact Node.ne_of_defunName?_of_defunParams ordered hform' hg named param equal

end Answers

variable {settings : Settings} {history : List Event} {uri : String} {d : Document}

/-- **Parameters under the cursor.** In an open document whose last text compiled, what is shown about
an identifier and where it is defined agree on whether it is a parameter exactly if the form around it
and the last form that defines the same function do, as they do if the form is this last one. -/
theorem params_agree_iff (opened : (after { settings } history).document? uri = some d)
    (compiles : d.diagnostics = []) (c : Cursor) (tree : FileTree) :
    ∃ k hover definition, d.compiled = some k ∧
      ((after { settings } history).handle tree (.hover uri c)).2.result = .ok hover ∧
      ((after { settings } history).handle tree (.definition uri c)).2.result = .ok definition ∧
      (ParamsAgree k.forms uri c hover definition ↔
        ∀ m last, mentionAt? k.forms c = some m → Node.latestForm? k.forms m.form = some last →
          (m.name ∈ last.paramNames ↔ m.name ∈ m.form.paramNames)) ∧
      ((∀ m, mentionAt? k.forms c = some m → Node.latestForm? k.forms m.form = some m.form) →
        ParamsAgree k.forms uri c hover definition) := by
  obtain ⟨x, u, k, known, outcome, table⟩ := compiled_of_open opened compiles
  obtain ⟨parsed, made⟩ := Delivery.outcome_eq_ok outcome
  have ordered := (Node.ordered_of_parse parsed).1
  have agrees : ParamsAgree k.forms uri c (d.hover c) (d.definition uri c) ↔
      ∀ m last, mentionAt? k.forms c = some m → Node.latestForm? k.forms m.form = some last →
        (m.name ∈ last.paramNames ↔ m.name ∈ m.form.paramNames) := by
    cases under : mentionAt? k.forms c with
    | none =>
      obtain ⟨hover, definition⟩ := nothing_of_mentionAt? known under uri
      rw [hover, definition]
      refine iff_of_true (fun name _ => iff_of_false ?_ ?_) (by simp)
      · rintro ⟨type, range, shown⟩
        cases shown
      · rintro ⟨form, -, -, w, -, -, placed⟩
        cases placed
    | some m =>
      obtain ⟨hform, -, mentioned⟩ := form_of_mentionAt? under
      obtain ⟨w, g, last, written, found, latest, params⟩ := CompiledUnit.exists_params made hform
      have inferred : k.definitionOf? m.form = some g := by
        rw [Compiled.definitionOf?, written, Option.bind_some, table, found]
      have bare : '(' ∉ m.name.toList :=
        (Node.isIdentifier_of_mem_identsOf (Node.wellFormed_of_mem_parse parsed _ hform)
          mentioned).bare
      have tells {name : String} (bare : '(' ∉ name.toList) :
          (d.hover c).TellsParam name ↔ name = m.name ∧ m.name ∈ last.paramNames := by
        rw [← params]
        exact tellsParam_iff known under inferred bare
      have leads {name : String} : (d.definition uri c).LeadsToParam k.forms uri c name ↔
          name = m.name ∧ m.name ∈ m.form.paramNames :=
        leadsToParam_iff known under ordered
      constructor
      · intro agree m' last' same latest'
        obtain rfl := Option.some.inj same
        obtain rfl := Option.some.inj (latest.symm.trans latest')
        have own := agree m.name bare
        rwa [tells bare, leads, and_iff_right rfl, and_iff_right rfl] at own
      · intro same name bare'
        rw [tells bare', leads, same m last rfl latest]
  refine ⟨k, d.hover c, d.definition uri c, known, ?_, ?_, agrees, fun latest => ?_⟩
  · rw [Server.handle, opened, Option.map_some, Option.getD_some]
  · rw [Server.handle, opened, Option.map_some, Option.getD_some]
  · refine agrees.2 fun m last under shown => ?_
    obtain rfl := Option.some.inj ((latest m under).symm.trans shown)
    exact Iff.rfl

/-! ## Two documents -/

/-- The identifier under the cursor, and whether it is a parameter in its form and in the last form
that defines the same function. -/
def Document.paramUnder? (d : Document) (c : Cursor) : Option (String × Bool × Bool) :=
  (mentionAt? d.forms c).bind fun m => (Node.latestForm? d.forms m.form).map fun last =>
    (m.name, m.form.paramNames.contains m.name, last.paramNames.contains m.name)

/-- A function, and a cursor on its parameter in the body. -/
def lone : List Event :=
  opening "(defun f (x) (+ x 1))"

theorem params_agree_iff_lone :
    ∃ d, (after {} lone).document? "file:///a" = some d ∧ d.diagnostics = [] ∧
      ∃ k hover definition, d.compiled = some k ∧
        ((after {} lone).handle .empty (.hover "file:///a" ⟨0, 16⟩)).2.result = .ok hover ∧
        ((after {} lone).handle .empty (.definition "file:///a" ⟨0, 16⟩)).2.result =
          .ok definition ∧
        hover = .hover "x Integer" ⟨⟨0, 16⟩, ⟨0, 17⟩⟩ ∧
        definition = .place "file:///a" ⟨⟨0, 10⟩, ⟨0, 11⟩⟩ ∧
        ParamsAgree k.forms "file:///a" ⟨0, 16⟩ hover definition := by
  have computed : ((after {} lone).document? "file:///a").map (fun d => (d.diagnostics.isEmpty,
      d.paramUnder? ⟨0, 16⟩, d.hover ⟨0, 16⟩, d.definition "file:///a" ⟨0, 16⟩)) =
      some (true, some ("x", true, true), .hover "x Integer" ⟨⟨0, 16⟩, ⟨0, 17⟩⟩,
        .place "file:///a" ⟨⟨0, 10⟩, ⟨0, 11⟩⟩) := by
    decide +kernel
  obtain ⟨d, opened, known⟩ := Option.map_eq_some_iff.1 computed
  simp only [Prod.mk.injEq, List.isEmpty_iff] at known
  obtain ⟨compiles, under, shown, placed⟩ := known
  obtain ⟨k, hover, definition, compiled, hovered, defined, agrees, -⟩ :=
    params_agree_iff opened compiles ⟨0, 16⟩ .empty
  have forms : d.forms = k.forms := by rw [Document.forms, compiled]; rfl
  refine ⟨d, opened, compiles, k, hover, definition, compiled, hovered, defined, ?_, ?_,
    agrees.2 fun m last found latest => ?_⟩
  · rw [Server.handle, opened, Option.map_some, Option.getD_some] at hovered
    exact (Except.ok.inj hovered).symm.trans shown
  · rw [Server.handle, opened, Option.map_some, Option.getD_some] at defined
    exact (Except.ok.inj defined).symm.trans placed
  · rw [Document.paramUnder?, forms, found, Option.bind_some, latest] at under
    simp only [Option.map_some, Option.some.injEq, Prod.mk.injEq, List.contains_eq_mem,
      decide_eq_true_eq] at under
    exact iff_of_true under.2.2 under.2.1

/-- A function that is defined twice with different parameters, and a cursor on the parameter of the
first one. -/
def renamed : List Event :=
  opening "(defun f (x) x)\n(defun f (y) y)"

/-- Nothing is shown about the parameter, though its place is found. -/
theorem hover_forgets_param :
    ∃ d, (after {} renamed).document? "file:///a" = some d ∧ d.diagnostics = [] ∧
      ∃ k hover definition, d.compiled = some k ∧
        ((after {} renamed).handle .empty (.hover "file:///a" ⟨0, 13⟩)).2.result = .ok hover ∧
        ((after {} renamed).handle .empty (.definition "file:///a" ⟨0, 13⟩)).2.result =
          .ok definition ∧
        hover = .nothing ∧ definition.LeadsToParam k.forms "file:///a" ⟨0, 13⟩ "x" ∧
        ¬ ParamsAgree k.forms "file:///a" ⟨0, 13⟩ hover definition := by
  have computed : ((after {} renamed).document? "file:///a").map (fun d => (d.diagnostics.isEmpty,
      d.hover ⟨0, 13⟩, d.definition "file:///a" ⟨0, 13⟩, d.compiled.map fun k =>
        k.forms.any fun form => (Range.ofLocation form.loc).contains ⟨0, 13⟩ &&
          form.defunParams.any fun w => w.name == "x" &&
            Range.ofLocation w.loc == ⟨⟨0, 10⟩, ⟨0, 11⟩⟩)) =
      some (true, .nothing, .place "file:///a" ⟨⟨0, 10⟩, ⟨0, 11⟩⟩, some true) := by
    decide +kernel
  obtain ⟨d, opened, known⟩ := Option.map_eq_some_iff.1 computed
  simp only [Prod.mk.injEq, List.isEmpty_iff, Option.map_eq_some_iff, List.any_eq_true,
    Bool.and_eq_true, beq_iff_eq] at known
  obtain ⟨compiles, shown, placed, k, compiled, form, hform, around, w, param, named, there⟩ := known
  have leads : (d.definition "file:///a" ⟨0, 13⟩).LeadsToParam k.forms "file:///a" ⟨0, 13⟩ "x" :=
    ⟨form, hform, around, w, param, named, by rw [placed, there]⟩
  refine ⟨d, opened, compiles, k, d.hover ⟨0, 13⟩, _, compiled, ?_, ?_, shown, leads, ?_⟩
  · rw [Server.handle, opened, Option.map_some, Option.getD_some]
  · rw [Server.handle, opened, Option.map_some, Option.getD_some]
  · intro agree
    obtain ⟨type, range, told⟩ := (agree "x" (by decide)).2 leads
    rw [shown] at told
    cases told

end Server

end LittleLisp
