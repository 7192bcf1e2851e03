import LittleLisp.Proofs.Tree.Grammar
import LittleLisp.Proofs.Validation.Sites
import LittleLisp.Unit

/-!
# Which stage finds which faults

A fault says by its kind which part of the work found it. Reading finds faults of reading, building
the table finds faults of structure, and lowering finds its own, besides calls of nothing and of
something unknown. So a fault about types always comes from validation
(`validate_of_mismatch`).
-/

namespace LittleLisp

/-! ## Reading -/

namespace Token

theorem kind_of_numberStep {first : Glyph} {rest : Source} {cause : Fault} {len : Nat}
    (h : numberStep first rest = .fault cause len) : cause.kind = .reading := by
  simp only [numberStep] at h
  split at h
  · cases h
    rfl
  · split at h
    · cases h
      rfl
    · split at h <;> cases h
      rfl

theorem kind_of_closeChar {value : Char} {more : Nat} {rest : Source} {cause : Fault} {len : Nat}
    (h : closeChar value more rest = .fault cause len) : cause.kind = .reading := by
  unfold closeChar at h
  split at h
  · split at h
    · cases h
      rfl
    · split at h <;> cases h
      rfl
  · cases h
    rfl

theorem kind_of_charStep {rest : Source} {cause : Fault} {len : Nat}
    (h : charStep rest = .fault cause len) : cause.kind = .reading := by
  unfold charStep at h
  split at h
  · cases h
    rfl
  · split at h
    · cases h
      rfl
    · split at h
      · split at h
        · cases h
          rfl
        · exact kind_of_closeChar h
      · exact kind_of_closeChar h

theorem kind_of_stringStep {first : Glyph} {rest : Source} {cause : Fault} {len : Nat}
    (h : stringStep first rest = .fault cause len) : cause.kind = .reading := by
  unfold stringStep at h
  split at h <;> cases h
  rfl

theorem kind_of_step {first : Glyph} {rest : Source} {cause : Fault} {len : Nat}
    (h : step first rest = .fault cause len) : cause.kind = .reading := by
  simp only [step] at h
  split at h
  · cases h
  split at h
  · cases h
  split at h
  · cases h
  split at h
  · cases h
  split at h
  · exact kind_of_stringStep h
  split at h
  · exact kind_of_charStep h
  split at h
  · exact kind_of_numberStep h
  split at h
  · cases h
  · cases h
    rfl

theorem kind_of_scan_eq_error {file : String} {p : Position} {source : Source} {problem : Problem}
    (h : scan file p source = .error problem) : problem.fault.kind = .reading := by
  induction p, source using scan.induct file with
  | case1 p =>
    rw [scan] at h
    cases h
  | case2 p first rest more skips ih =>
    rw [scan, skips] at h
    exact ih h
  | case3 p first rest value more len takes later read ih =>
    simp only [scan, takes, read] at h
    cases h
  | case4 p first rest value more len takes problem' fails ih =>
    simp only [scan, takes, fails] at h
    obtain rfl := Except.error.inj h
    exact ih fails
  | case5 p first rest cause len faults =>
    rw [scan, faults] at h
    obtain rfl := Except.error.inj h
    exact kind_of_step faults

end Token

theorem Node.kind_of_parse_eq_error {file : String} {source : Source} {problem : Problem}
    (h : parse file source = .error problem) : problem.fault.kind = .reading := by
  unfold parse at h
  split at h
  · exact Reader.State.kind_of_run_eq_error h
  · next fails =>
    obtain rfl := Except.error.inj h
    exact Token.kind_of_scan_eq_error fails

/-! ## Building the table -/

namespace Definition

theorem kind_of_paramsOf_eq_error {function : String} {known : List String} {args : List Node}
    {problem : Problem} (h : paramsOf function known args = .error problem) :
    problem.fault.kind = .structural := by
  induction args generalizing known with
  | nil => cases h
  | cons arg rest ih =>
    cases arg with
    | ident name l =>
      simp only [paramsOf] at h
      split at h
      · obtain rfl := Except.error.inj h
        rfl
      · split at h
        · cases h
        · next later =>
          obtain rfl := Except.error.inj h
          exact ih later
    | call | int | char | str | cond =>
      obtain rfl := Except.error.inj h
      rfl

theorem kind_of_ofParts_eq_error {name : String} {l : Location} {parts : List Node}
    {problem : Problem} (h : ofParts name l parts = .error problem) :
    problem.fault.kind = .structural := by
  unfold ofParts at h
  split at h
  · obtain rfl := Except.error.inj h
    rfl
  · split at h
    · next read =>
      obtain rfl := Except.error.inj h
      exact kind_of_paramsOf_eq_error read
    · split at h
      · next body =>
        obtain rfl := Except.error.inj h
        unfold bodyOf at body
        split at body <;> cases body <;> rfl
      · cases h
  · obtain rfl := Except.error.inj h
    rfl

theorem kind_of_ofForm_eq_error {form : Node} {problem : Problem}
    (h : ofForm form = .error problem) : problem.fault.kind = .structural := by
  unfold ofForm at h
  split at h
  · split at h
    · split at h
      · unfold ofMembers at h
        split at h
        · obtain rfl := Except.error.inj h
          rfl
        · simp only at h
          split at h
          · obtain rfl := Except.error.inj h
            rfl
          · exact kind_of_ofParts_eq_error h
        · obtain rfl := Except.error.inj h
          rfl
      · obtain rfl := Except.error.inj h
        rfl
    · obtain rfl := Except.error.inj h
      rfl
  · obtain rfl := Except.error.inj h
    rfl

end Definition

theorem SymbolTable.kind_of_insertForms_eq_error {t : SymbolTable} {forms : List Node}
    {problem : Problem} (h : t.insertForms forms = .error problem) :
    problem.fault.kind = .structural := by
  induction forms generalizing t with
  | nil => cases h
  | cons form rest ih =>
    simp only [insertForms] at h
    split at h
    · exact ih h
    · next failed =>
      obtain rfl := Except.error.inj h
      exact Definition.kind_of_ofForm_eq_error failed

/-! ## Lowering -/

namespace Lowering

variable {t : SymbolTable} {s : Settings}

/-- The kinds of faults that lowering finds: its own, and names in the place of a function that stand
for none. -/
def faultKinds : List Fault.Kind :=
  [.lowering, .structural, .unknownSymbol]

theorem mem_of_gather_eq_error {α : Type} {rs : List (Except Problem α)} {problem : Problem}
    (h : gather rs = .error problem) : .error problem ∈ rs := by
  induction rs with
  | nil => cases h
  | cons r rest ih =>
    cases r with
    | error first =>
      obtain rfl := Except.error.inj h
      exact List.mem_cons_self
    | ok a =>
      simp only [gather] at h
      split at h
      · cases h
      · next later =>
        obtain rfl := Except.error.inj h
        exact List.mem_cons_of_mem _ (ih later)

theorem exprs_eq (t : SymbolTable) (s : Settings) (ns : List Node) :
    exprs t s ns = ns.map (expr t s) := by
  induction ns with
  | nil => simp only [exprs, List.map_nil]
  | cons n rest ih => simp only [exprs, ih, List.map_cons]

theorem kind_of_operatorCall_eq_error {d : Definition} {l : Location} {es : List C.Expr}
    {problem : Problem} (h : operatorCall d l es = .error problem) :
    problem.fault.kind = .lowering := by
  unfold operatorCall at h
  split at h <;> cases h
  rfl

/-- A call of an operator fails by itself or with the problem of one of its arguments. -/
theorem kind_of_builtinCall_eq_error {d : Definition} {l : Location} {args : List Node}
    {lowered : List (Except Problem C.Expr)} {problem : Problem}
    (h : builtinCall d l args lowered = .error problem) :
    problem.fault.kind = .lowering ∨ .error problem ∈ lowered := by
  unfold builtinCall at h
  split at h
  · obtain rfl := Except.error.inj h
    exact .inl rfl
  · split at h
    · next yes more _ _ =>
      split at h
      · exact .inr (by simp [h])
      · cases more with
        | nil =>
          obtain rfl := Except.error.inj h
          exact .inl rfl
        | cons no rest =>
          rw [List.headD_cons] at h
          exact .inr (by simp [h])
    · split at h
      · exact .inl (kind_of_operatorCall_eq_error h)
      · next failed =>
        obtain rfl := Except.error.inj h
        exact .inr (mem_of_gather_eq_error failed)

theorem kind_of_choices_eq_error {clauses : List (Node × Node)} {problem : Problem}
    (each : ∀ c ∈ clauses, ∀ q, expr t s c.1 = .error q ∨ expr t s c.2 = .error q →
      q.fault.kind ∈ faultKinds)
    (h : choices t s clauses = .error problem) : problem.fault.kind ∈ faultKinds := by
  induction clauses with
  | nil =>
    simp only [choices] at h
    obtain rfl := Except.error.inj h
    simp [faultKinds, Fault.kind]
  | cons c rest ih =>
    obtain ⟨first, later⟩ := List.forall_mem_cons.1 each
    cases rest with
    | nil =>
      simp only [choices] at h
      exact first problem (.inr h)
    | cons next rest =>
      simp only [choices] at h
      split at h
      · next failed =>
        obtain rfl := Except.error.inj h
        exact ih later failed
      · split at h
        · next failed =>
          obtain rfl := Except.error.inj h
          exact first _ (.inl failed)
        · split at h
          · next failed =>
            obtain rfl := Except.error.inj h
            exact first _ (.inr failed)
          · cases h

theorem kind_of_expr_eq_error {n : Node} {problem : Problem} (h : expr t s n = .error problem) :
    problem.fault.kind ∈ faultKinds := by
  induction n using Node.induction generalizing problem with
  | int | char | str | ident =>
    simp only [expr] at h
    cases h
  | call members l ih =>
    cases members with
    | nil =>
      simp only [expr] at h
      obtain rfl := Except.error.inj h
      simp [faultKinds, Fault.kind, Fault.at]
    | cons first args =>
      have of_args (failed : .error problem ∈ exprs t s args) : problem.fault.kind ∈ faultKinds := by
        rw [exprs_eq] at failed
        obtain ⟨n, hn, failed⟩ := List.mem_map.1 failed
        exact ih n (List.mem_cons_of_mem _ hn) failed
      cases first with
      | ident name at_ =>
        simp only [expr] at h
        split at h
        · obtain rfl := Except.error.inj h
          simp [faultKinds, Fault.kind, Fault.at]
        · split at h
          · rcases kind_of_builtinCall_eq_error h with kind | failed
            · simp [faultKinds, kind]
            · exact of_args failed
          · split at h
            · cases h
            · next failed =>
              obtain rfl := Except.error.inj h
              exact of_args (mem_of_gather_eq_error failed)
      | int | char | str | call | cond =>
        simp only [expr] at h
        obtain rfl := Except.error.inj h
        simp [faultKinds, Fault.kind, Fault.at]
  | cond clauses l ih =>
    simp only [expr] at h
    split at h
    · refine kind_of_choices_eq_error ?_ h
      rintro c hc q (failed | failed)
      · exact (ih c hc).1 failed
      · exact (ih c hc).2 failed
    · obtain rfl := Except.error.inj h
      simp [faultKinds, Fault.kind, Fault.at]

theorem kind_of_clauses_eq_error {cs : List (Node × Node)} {problem : Problem}
    (h : clauses t s cs = .error problem) : problem.fault.kind ∈ faultKinds := by
  induction cs with
  | nil => cases h
  | cons c rest ih =>
    simp only [clauses] at h
    split at h
    · next failed =>
      obtain rfl := Except.error.inj h
      exact kind_of_expr_eq_error failed
    · split at h
      · next failed =>
        obtain rfl := Except.error.inj h
        exact kind_of_expr_eq_error failed
      · split at h
        · next failed =>
          obtain rfl := Except.error.inj h
          exact ih failed
        · cases h

theorem kind_of_body_eq_error {name : String} {n : Node} {problem : Problem}
    (h : body t s name n = .error problem) : problem.fault.kind ∈ faultKinds := by
  unfold body at h
  split at h
  · split at h
    · next failed =>
      obtain rfl := Except.error.inj h
      exact kind_of_clauses_eq_error failed
    · cases h
  · split at h
    · cases h
    · next failed =>
      obtain rfl := Except.error.inj h
      exact kind_of_expr_eq_error failed

theorem kind_of_checkName_eq_error {source : String} {l : Option Location} {problem : Problem}
    (h : checkName s source l = .error problem) : problem.fault.kind = .lowering := by
  simp only [checkName] at h
  split at h
  · obtain rfl := Except.error.inj h
    rfl
  · split at h
    · obtain rfl := Except.error.inj h
      rfl
    · cases h

theorem kind_of_reserve_eq_error {taken : Taken} {source name : String} {l : Option Location}
    {problem : Problem} (h : reserve taken source name l = .error problem) :
    problem.fault.kind = .lowering := by
  unfold reserve at h
  split at h
  · split at h
    · cases h
    · obtain rfl := Except.error.inj h
      rfl
  · cases h

theorem kind_of_params_eq_error {l : Option Location} {taken : Taken} {ps : List Param}
    {problem : Problem} (h : params s l taken ps = .error problem) :
    problem.fault.kind = .lowering := by
  induction ps generalizing taken with
  | nil => cases h
  | cons p rest ih =>
    simp only [params] at h
    split at h
    · next failed =>
      obtain rfl := Except.error.inj h
      exact kind_of_checkName_eq_error failed
    · split at h
      · next failed =>
        obtain rfl := Except.error.inj h
        exact kind_of_reserve_eq_error failed
      · split at h
        · next failed =>
          obtain rfl := Except.error.inj h
          exact ih failed
        · cases h

theorem kind_of_function?_eq_error {d : Definition} {problem : Problem}
    (h : function? t s d = .error problem) : problem.fault.kind ∈ faultKinds := by
  unfold function? at h
  split at h
  · cases h
  · split at h
    · next failed =>
      obtain rfl := Except.error.inj h
      simp [faultKinds, kind_of_checkName_eq_error failed]
    · split at h
      · next failed =>
        obtain rfl := Except.error.inj h
        simp [faultKinds, kind_of_params_eq_error failed]
      · split at h
        · next failed =>
          obtain rfl := Except.error.inj h
          exact kind_of_body_eq_error failed
        · cases h

theorem kind_of_functionsFrom_eq_error {taken : Taken} {ds : List Definition} {problem : Problem}
    (h : functionsFrom t s taken ds = .error problem) : problem.fault.kind ∈ faultKinds := by
  induction ds generalizing taken with
  | nil => cases h
  | cons d rest ih =>
    simp only [functionsFrom] at h
    split at h
    · next failed =>
      obtain rfl := Except.error.inj h
      simp [faultKinds, kind_of_reserve_eq_error failed]
    · split at h
      · next failed =>
        obtain rfl := Except.error.inj h
        exact kind_of_function?_eq_error failed
      · split at h
        · next failed =>
          obtain rfl := Except.error.inj h
          exact ih failed
        · split at h <;> cases h

end Lowering

/-! ## Compiling -/

namespace CompiledUnit

@[simp] theorem problem_attach (r : Report) (source : Source) :
    (r.attach source).problem = r.problem := by
  rcases r with ⟨⟨fault, loc⟩, shown⟩
  cases shown <;> cases loc <;> rfl

/-- Only validation finds faults about types, in the table that inference ends with. -/
theorem validate_of_mismatch {file : String} {forms : List Node} {s : Settings} {problem : Problem}
    (h : (ofForms file forms s).result = .error problem) (kind : problem.fault.kind = .mismatch) :
    ∃ t, SymbolTable.ofForms forms = .ok t ∧
      Validation.validate (Inference.infer t s.maxRounds).table = .error problem := by
  unfold ofForms at h
  split at h
  · obtain rfl := Except.error.inj h
    cases kind
  · split at h
    · next failed =>
      obtain rfl := Except.error.inj h
      rw [SymbolTable.kind_of_insertForms_eq_error failed] at kind
      cases kind
    · next t build =>
      refine ⟨t, build, ?_⟩
      simp only [ofInferred] at h
      split at h
      · next failed => exact Except.error.inj h ▸ failed
      · split at h
        · next failed =>
          obtain rfl := Except.error.inj h
          have other := Lowering.kind_of_functionsFrom_eq_error failed
          rw [kind] at other
          exact absurd other (by decide)
        · cases h

/-- A report of a compilation is about a fault of reading, or about the problem of the trees. -/
theorem problem_of_compile {file : String} {source : Source} {s : Settings} {report : Report}
    (h : (compile file source s).result = .error report) :
    report.problem.fault.kind = .reading ∨
      ∃ forms, (ofForms file forms s).result = .error report.problem := by
  unfold compile at h
  split at h
  · next failed =>
    obtain rfl := Except.error.inj h
    left
    simpa [Report.bare] using Node.kind_of_parse_eq_error failed
  · next forms parsed =>
    right
    simp only at h
    refine ⟨forms, ?_⟩
    cases result : (ofForms file forms s).result with
    | ok u =>
      rw [result] at h
      cases h
    | error problem =>
      rw [result] at h
      obtain rfl := Except.error.inj h
      simp [Report.bare]

theorem ofForms_of_compile {file : String} {source : Source} {s : Settings} {u : CompiledUnit}
    (h : (compile file source s).result = .ok u) :
    ∃ forms, Node.parse file source = .ok forms ∧ (ofForms file forms s).result = .ok u := by
  unfold compile at h
  split at h
  · cases h
  · next forms parsed =>
    simp only at h
    refine ⟨forms, parsed, ?_⟩
    cases result : (ofForms file forms s).result with
    | ok u' =>
      rw [result] at h
      exact congrArg Except.ok (Except.ok.inj h)
    | error problem =>
      rw [result] at h
      cases h

end CompiledUnit

end LittleLisp
