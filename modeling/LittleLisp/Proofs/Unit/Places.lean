import LittleLisp.Proofs.Lowering.Refusal
import LittleLisp.Proofs.Report.Excerpt
import LittleLisp.Proofs.Tree.Places
import LittleLisp.Proofs.Validation.Sites

/-!
# Places of problems

Every problem of a compilation is at a place of its source, so its report shows an excerpt. Reading
keeps to the places of the source, and what comes after it takes the places of nodes: building the
table, validation and lowering keep to any places that all nodes of the program are in.

Validation and lowering are not gone through once more. What they refuse, and with which problem, is
known (`Validation.Refused`, `Lowering.Refused`), and each of these problems is at a node.
-/

namespace LittleLisp

variable {P : Location → Prop}

/-! ## Building the table -/

/-- A function of the program and its body are in these places. -/
structure Definition.Placed (P : Location → Prop) (d : Definition) : Prop where
  loc : ∃ l, d.loc = some l ∧ P l
  body : ∀ body, d.body = some body → body.Placed P

/-- All functions of a table are in these places. -/
def SymbolTable.Placed (P : Location → Prop) (t : SymbolTable) : Prop :=
  ∀ d ∈ t.functions, d.Placed P

namespace Definition

theorem placed_of_paramsOf {function : String} {known : List String} {args : List Node}
    (each : ∀ n ∈ args, n.Placed P) {problem : Problem}
    (h : paramsOf function known args = .error problem) : problem.Placed P := by
  induction args generalizing known with
  | nil => cases h
  | cons arg rest ih =>
    obtain ⟨first, later⟩ := List.forall_mem_cons.1 each
    cases arg with
    | ident name l =>
      simp only [paramsOf] at h
      split at h
      · obtain rfl := Except.error.inj h
        exact Fault.placed_at first.loc _
      · split at h
        · cases h
        · next failed =>
          obtain rfl := Except.error.inj h
          exact ih later failed
    | call | int | char | str | cond =>
      obtain rfl := Except.error.inj h
      exact Fault.placed_at first.loc _

theorem placed_of_bodyOf {function : String} {l : Location} (here : P l) {rest : List Node}
    (each : ∀ n ∈ rest, n.Placed P) {problem : Problem}
    (h : bodyOf function l rest = .error problem) : problem.Placed P := by
  unfold bodyOf at h
  split at h
  · obtain rfl := Except.error.inj h
    exact Fault.placed_at here _
  · cases h
  · obtain rfl := Except.error.inj h
    exact Fault.placed_at (each _ (by simp)).loc _

theorem placed_of_ofParts {name : String} {l : Location} (here : P l) {parts : List Node}
    (each : ∀ n ∈ parts, n.Placed P) {problem : Problem}
    (h : ofParts name l parts = .error problem) : problem.Placed P := by
  unfold ofParts at h
  split at h
  · obtain rfl := Except.error.inj h
    exact Fault.placed_at here _
  · obtain ⟨first, later⟩ := List.forall_mem_cons.1 each
    cases first with
    | call _ args =>
      split at h
      · next failed =>
        obtain rfl := Except.error.inj h
        exact placed_of_paramsOf args failed
      · split at h
        · next failed =>
          obtain rfl := Except.error.inj h
          exact placed_of_bodyOf here later failed
        · cases h
  · obtain rfl := Except.error.inj h
    exact Fault.placed_at (each _ (by simp)).loc _

theorem placed_of_ofMembers {l : Location} (here : P l) {members : List Node}
    (each : ∀ n ∈ members, n.Placed P) {problem : Problem}
    (h : ofMembers l members = .error problem) : problem.Placed P := by
  unfold ofMembers at h
  split at h
  · obtain rfl := Except.error.inj h
    exact Fault.placed_at here _
  · obtain ⟨first, later⟩ := List.forall_mem_cons.1 each
    simp only at h
    split at h
    · obtain rfl := Except.error.inj h
      exact Fault.placed_at first.loc _
    · exact placed_of_ofParts here later h
  · obtain rfl := Except.error.inj h
    exact Fault.placed_at (each _ (by simp)).loc _

theorem keepsTo_ofForm {form : Node} (h : form.Placed P) :
    KeepsTo P (Definition.Placed P) (ofForm form) := by
  cases made : ofForm form with
  | ok d =>
    obtain ⟨_, _, _, _, _, _, body, l, _, rfl, -, -, -, rfl⟩ := ofForm_eq_ok made
    cases h with
    | call here each =>
      refine ⟨⟨l, rfl, here⟩, ?_⟩
      intro written same
      obtain rfl := Option.some.inj same
      exact each _ (by simp)
  | error problem =>
    unfold ofForm at made
    split at made
    · cases h with
      | call here each =>
        split at made
        · obtain ⟨-, later⟩ := List.forall_mem_cons.1 each
          split at made
          · exact placed_of_ofMembers here later made
          · obtain rfl := Except.error.inj made
            exact Fault.placed_at here _
        · obtain rfl := Except.error.inj made
          exact Fault.placed_at here _
    · obtain rfl := Except.error.inj made
      exact Fault.placed_at h.loc _

end Definition

namespace SymbolTable

theorem placed_of_insertForms {t : SymbolTable} {forms : List Node}
    (each : ∀ n ∈ forms, n.Placed P) {problem : Problem}
    (h : t.insertForms forms = .error problem) : problem.Placed P := by
  induction forms generalizing t with
  | nil => cases h
  | cons form rest ih =>
    obtain ⟨first, later⟩ := List.forall_mem_cons.1 each
    simp only [insertForms] at h
    split at h
    · exact ih later h
    · next failed =>
      obtain rfl := Except.error.inj h
      exact (Definition.keepsTo_ofForm first).of_error failed

/-- The table of a program keeps to the places of its trees. -/
theorem keepsTo_ofForms {forms : List Node} (each : ∀ n ∈ forms, n.Placed P) :
    KeepsTo P (SymbolTable.Placed P) (ofForms forms) := by
  cases build : ofForms forms with
  | ok t =>
    intro d hd
    obtain ⟨form, member, defined⟩ := exists_form_of_mem_functions build hd
    exact (Definition.keepsTo_ofForm (each form member)).of_ok defined
  | error problem => exact placed_of_insertForms each build

end SymbolTable

/-- Inference leaves functions where they are. -/
theorem Inference.placed_infer {t : SymbolTable} (h : t.Placed P) (max : Int) :
    (infer t max).table.Placed P := by
  refine run_of_round (P := SymbolTable.Placed P) ?_ h 0 (limitOf max)
  intro u placed d hd
  obtain ⟨old, hold, rfl⟩ := mem_functions_round hd
  exact ⟨by rw [refine_loc]; exact (placed old hold).loc,
    by rw [refine_body]; exact (placed old hold).body⟩

/-! ## Validation -/

namespace Validation

variable {t : SymbolTable} {d : Definition} {body n : Node} {problem : Problem}

theorem Evaluated.placed (evaluated : Evaluated body n) (h : body.Placed P) : n.Placed P := by
  induction evaluated with
  | body => exact h
  | argument _ hn ih =>
    cases ih with
    | call _ each => exact each _ (List.mem_cons_of_mem _ hn)
  | condition _ hc ih =>
    cases ih with
    | cond _ conditions _ => exact conditions _ hc
  | result _ hc ih =>
    cases ih with
    | cond _ _ results => exact results _ hc

theorem Unresolved.placed (unresolved : Unresolved t n problem) (h : n.Placed P) :
    problem.Placed P := by
  cases unresolved with
  | headless l => exact Fault.placed_at h.loc _
  | unknown at_ =>
    cases h with
    | call _ each =>
      cases each _ List.mem_cons_self with
      | ident _ here => exact Fault.placed_at here _

/-- The problem of a node that is refused is at that node, at a member of it, or at the head of a
member. -/
theorem Refused.placed (refused : Refused t d n problem) (h : n.Placed P) : problem.Placed P := by
  cases refused with
  | ident l => exact Fault.placed_at h.loc _
  | callee unresolved => exact unresolved.placed h
  | argument at_ l found unresolved =>
    obtain ⟨before, arg, after, rfl, -, unresolved⟩ := unresolved
    cases h with
    | call _ each => exact unresolved.placed (each arg (by simp))
  | arity at_ l => exact Fault.placed_at h.loc _
  | mismatch at_ l found resolved arity param arg =>
    cases h with
    | call _ each =>
      have place := each _ (List.mem_cons_of_mem _ (List.mem_of_getElem? arg))
      exact Fault.placed_at place.loc _

/-- Validation keeps to the places of the functions. -/
theorem placed_of_validate (sound : t.Sound) (h : t.Placed P)
    (failed : validate t = .error problem) : problem.Placed P := by
  rcases conflict_or_refused_of_validate sound failed with
    ⟨d, hd, p, -, -, rfl⟩ | ⟨d, hd, body, written, m, evaluated, refused⟩
  · exact (h d hd).loc
  · exact refused.placed (evaluated.placed ((h d hd).body body written))

end Validation

/-! ## Lowering -/

namespace Lowering

variable {t : SymbolTable} {s : Settings} {body n : Node} {problem : Problem}

theorem Kept.placed (kept : Kept body n) (h : body.Placed P) : n.Placed P := by
  induction kept with
  | body => exact h
  | argument _ arg _ ih =>
    cases ih with
    | call _ each => exact each _ (List.mem_cons_of_mem _ (List.mem_of_getElem? arg))
  | condition _ hc ih =>
    cases ih with
    | cond _ conditions _ => exact conditions _ hc
  | result _ hc ih =>
    cases ih with
    | cond _ _ results => exact results _ hc

theorem loc_of_checkName {source : String} {l : Option Location}
    (h : checkName s source l = .error problem) : problem.loc = l := by
  simp only [checkName] at h
  split at h
  · exact Except.error.inj h ▸ rfl
  · split at h
    · exact Except.error.inj h ▸ rfl
    · cases h

/-- The problem of a table that is not lowered is at a function or at a conditional. -/
theorem Refused.placed (refused : Refused t s problem) (h : t.Placed P) : problem.Placed P := by
  cases refused with
  | functionName hd claimed =>
    rw [Problem.Placed, loc_of_checkName claimed]
    exact (h _ hd).loc
  | paramName hd hp claimed =>
    rw [Problem.Placed, loc_of_checkName claimed]
    exact (h _ hd).loc
  | functionsMeet hd he => exact (h _ he).loc
  | paramsMeet hd => exact (h _ hd).loc
  | openCond hd written kept =>
    exact Fault.placed_at (kept.placed ((h _ hd).body _ written)).loc _

end Lowering

/-! ## Kinds -/

/-- The kinds of faults that a program can have. -/
def Fault.programKinds : List Fault.Kind :=
  [.reading, .structural, .unknownSymbol, .arity, .mismatch, .lowering]

theorem Validation.kind_of_validate {t : SymbolTable} (sound : t.Sound) {problem : Problem}
    (failed : validate t = .error problem) : problem.fault.kind ∈ Fault.programKinds := by
  have unresolved_kind {n : Node} (unresolved : Unresolved t n problem) :
      problem.fault.kind ∈ Fault.programKinds := by
    rcases unresolved.kind_eq with kind | kind <;> simp [kind, Fault.programKinds]
  rcases conflict_or_refused_of_validate sound failed with
    ⟨d, hd, p, -, -, rfl⟩ | ⟨d, hd, body, -, m, -, refused⟩
  · simp [Fault.kind, Fault.programKinds]
  · cases refused with
    | ident | arity | mismatch => simp [Fault.at, Fault.kind, Fault.programKinds]
    | callee unresolved => exact unresolved_kind unresolved
    | argument at_ l found unresolved =>
      obtain ⟨before, n, after, -, -, unresolved⟩ := unresolved
      exact unresolved_kind unresolved

theorem Lowering.Refused.kind_eq {t : SymbolTable} {s : Settings} {problem : Problem}
    (h : Refused t s problem) : problem.fault.kind = .lowering := by
  rcases h.fault_cases with ⟨_, fault⟩ | ⟨_, fault⟩ | ⟨_, _, fault⟩ | fault <;> rw [fault] <;> rfl

/-! ## Compiling -/

namespace CompiledUnit

/-- A valid table with inferred types is not lowered for one of the reasons only. -/
theorem refused_of_functions {forms : List Node} {t : SymbolTable}
    (build : SymbolTable.ofForms forms = .ok t) {s : Settings}
    (valid : Validation.validate (Inference.infer t s.maxRounds).table = .ok ()) {problem : Problem}
    (failed : Lowering.functions (Inference.infer t s.maxRounds).table s = .error problem) :
    Lowering.Refused (Inference.infer t s.maxRounds).table s problem := by
  obtain ⟨ws, -, lists⟩ := SymbolTable.lists_ofForms build
  obtain ⟨sound, lists⟩ : (Inference.infer t s.maxRounds).table.Sound ∧
      (Inference.infer t s.maxRounds).table.Lists ws :=
    Inference.run_of_round (P := fun u => u.Sound ∧ u.Lists ws)
      (fun u h => ⟨Inference.sound_round h.1, h.2.round h.1⟩)
      ⟨SymbolTable.sound_ofForms build, lists⟩ 0 _
  exact Lowering.refused_of_functionsFrom sound lists.operators
    (fun d hd body written => Validation.scoped_of_validate valid hd written)
    (Lowering.Taken.within_nil s _) (fun _ hd => hd) failed

/-- A program with usable settings fails with a fault of a program, at one of its places. -/
theorem placed_of_ofForms {file : String} {forms : List Node} {s : Settings} {problem : Problem}
    (usable : s.flaw? = none) (each : ∀ n ∈ forms, n.Placed P)
    (h : (ofForms file forms s).result = .error problem) :
    problem.Placed P ∧ problem.fault.kind ∈ Fault.programKinds := by
  simp only [ofForms, usable] at h
  rcases (SymbolTable.keepsTo_ofForms each).cases with ⟨t, build, placed⟩ | ⟨p, failed, placed⟩
  · simp only [build, ofInferred] at h
    have sound := Inference.sound_infer (SymbolTable.sound_ofForms build) s.maxRounds
    have placed := Inference.placed_infer placed s.maxRounds
    split at h
    · next failed =>
      obtain rfl := Except.error.inj h
      exact ⟨Validation.placed_of_validate sound placed failed,
        Validation.kind_of_validate sound failed⟩
    · next valid =>
      split at h
      · next failed =>
        obtain rfl := Except.error.inj h
        have refused := refused_of_functions build valid failed
        exact ⟨refused.placed placed, by simp [refused.kind_eq, Fault.programKinds]⟩
      · cases h
  · simp only [failed] at h
    obtain rfl := Except.error.inj h
    have kind := SymbolTable.kind_of_insertForms_eq_error failed
    exact ⟨placed, by simp [kind, Fault.programKinds]⟩

/-- A source that is not compiled with usable settings is reported with a fault of a program, at one
of its places and against itself. -/
theorem placed_of_compile {file : String} {source : Source} {s : Settings} {r : Report}
    (usable : s.flaw? = none) (h : (compile file source s).result = .error r) :
    r.problem.Placed (·.PointsInto file source) ∧ r.problem.fault.kind ∈ Fault.programKinds ∧
      r.source = some source := by
  have shown {problem : Problem} (placed : problem.Placed (·.PointsInto file source)) :
      ((Report.bare problem).attach source).source = some source := by
    obtain ⟨l, loc, -⟩ := placed
    simp only [Report.attach, Report.bare, loc]
  rcases (Node.keepsTo_parse file source).cases with ⟨forms, read, each⟩ | ⟨p, failed, placed⟩
  · simp only [compile, read] at h
    cases work : (ofForms file forms s).result with
    | ok u =>
      rw [work] at h
      cases h
    | error problem =>
      rw [work] at h
      obtain rfl := Except.error.inj h
      obtain ⟨placed, kind⟩ := placed_of_ofForms usable each work
      rw [problem_attach]
      exact ⟨placed, kind, shown placed⟩
  · simp only [compile, failed] at h
    obtain rfl := Except.error.inj h
    rw [problem_attach]
    have kind := Node.kind_of_parse_eq_error failed
    exact ⟨placed, by simp [Report.bare, kind, Fault.programKinds], shown placed⟩

/-- **Failures point into the source.** A text that is not compiled with usable settings is reported
with a fault of a program. The report has a place in the file: a line of the text, and a column that
the line has. It shows the text of that line with marks under it. -/
theorem compile_points_into_source {file : String} {bytes : List UInt8} {s : Settings} {r : Report}
    (usable : s.flaw? = none)
    (h : (compile file (Source.ofBytes bytes) s).result = .error r) :
    r.problem.fault.kind ∈ Fault.programKinds ∧ r.source = some (Source.ofBytes bytes) ∧
    ∃ l line, r.problem.loc = some l ∧ l.file = file ∧
      1 ≤ l.line ∧ l.line ≤ (Source.byteLines bytes).length ∧
      (Source.byteLines bytes)[(l.line - 1).toNat]? = some line ∧
      1 ≤ l.col ∧ l.col ≤ (Source.ofBytes line).length ∧
      ∃ above below, r.styled = Excerpt.heading r.problem.message l ++ above ++
        (Source.ofBytes line ++ Source.ofString ("\n" ++ Excerpt.marks l)) ++ below := by
  obtain ⟨⟨l, loc, points⟩, kind, shown⟩ := placed_of_compile usable h
  obtain ⟨first, last, left, line, found, right⟩ := points.bounds
  obtain ⟨above, below, styled⟩ := Excerpt.exists_styled r.problem.message first found
  rw [Source.lines_ofBytes, List.length_map] at last
  rw [Source.lines_ofBytes, List.getElem?_map] at found
  obtain ⟨text, inside, rfl⟩ := Option.map_eq_some_iff.1 found
  refine ⟨kind, shown, l, text, loc, points.1, first, last, inside, left, right, above, below, ?_⟩
  simp only [Report.styled, loc, shown, styled]

/-- A definition with a body too many, which stands behind a string of two lines and a byte that is no
character. -/
def twoBodies : List UInt8 :=
  [40, 100, 101, 102, 117, 110, 32, 102, 32, 40, 41, 32, 34, 10, 255, 34, 32, 121, 41]

theorem compile_points_into_source_two_bodies : ({} : Settings).flaw? = none ∧
    ∃ r, (compile "a" (Source.ofBytes twoBodies) {}).result = .error r ∧
      r.problem.loc = some ⟨"a", 2, 4, 1, none⟩ ∧ r.problem.fault.kind ∈ Fault.programKinds ∧
      ∃ l line above below, r.problem.loc = some l ∧ l.col ≤ (Source.ofBytes line).length ∧
        r.styled = Excerpt.heading r.problem.message l ++ above ++
          (Source.ofBytes line ++ Source.ofString ("\n" ++ Excerpt.marks l)) ++ below := by
  have usable : ({} : Settings).flaw? = none := by decide
  have failed : (compile "a" (Source.ofBytes twoBodies) {}).result =
      .error ⟨(Fault.extraBody "f").at ⟨"a", 2, 4, 1, none⟩, some (Source.ofBytes twoBodies)⟩ := by
    with_unfolding_all rfl
  obtain ⟨kind, -, l, line, loc, -, -, -, -, -, col, above, below, styled⟩ :=
    compile_points_into_source usable failed
  exact ⟨usable, _, failed, rfl, kind, l, line, above, below, loc, col, styled⟩

end CompiledUnit

end LittleLisp
