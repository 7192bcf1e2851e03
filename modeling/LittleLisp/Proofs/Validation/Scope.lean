import LittleLisp.Proofs.Tree.Induction
import LittleLisp.Validation

/-!
# Scope

What validation promises about names, whatever it says about types: every identifier that is
evaluated is a literal or a parameter, and every call that is evaluated is headed by the name of a
definition and has as many arguments as that definition has parameters.
-/

namespace LittleLisp.Validation

/-- Names and calls in a body of `d` are in order. -/
inductive Scoped (t : SymbolTable) (d : Definition) : Node → Prop
  | int (value : Int) (l : Location) : Scoped t d (.int value l)
  | char (value : Char) (l : Location) : Scoped t d (.char value l)
  | str (value : String) (l : Location) : Scoped t d (.str value l)
  | ident {name : String} {l : Location} :
      isLiteralName name = true ∨ name ∈ d.params.map (·.name) → Scoped t d (.ident name l)
  | cond {clauses : List (Node × Node)} {l : Location} :
      (∀ c ∈ clauses, Scoped t d c.1) → (∀ c ∈ clauses, Scoped t d c.2) →
      Scoped t d (.cond clauses l)
  | call {name : String} {g : Definition} {args : List Node} {at_ l : Location} :
      t.lookup name = some g → args.length = g.params.length → (∀ n ∈ args, Scoped t d n) →
      Scoped t d (.call (.ident name at_ :: args) l)

variable {t : SymbolTable} {d : Definition}

theorem shallowTypes_length {args : List Node} {types : List ValueType}
    (h : shallowTypes t args = .ok types) : types.length = args.length := by
  induction args generalizing types with
  | nil =>
    obtain rfl := Except.ok.inj h
    rfl
  | cons n rest ih =>
    simp only [shallowTypes] at h
    split at h
    · cases h
    · split at h
      · cases h
      · next later read =>
        obtain rfl := Except.ok.inj h
        simp [ih read]

/-- A call that passes its check. -/
theorem checkCall_eq_ok {members : List Node} {l : Location}
    (h : checkCall t members l = .ok ()) :
    ∃ name at_ args g, members = .ident name at_ :: args ∧ t.lookup name = some g ∧
      args.length = g.params.length := by
  unfold checkCall callee at h
  match members with
  | .ident name at_ :: args =>
    simp only [Node.head?] at h
    split at h
    · cases h
    · next g found =>
      split at found
      · next h' =>
        obtain rfl := Except.ok.inj found
        split at h
        · cases h
        · next types read =>
          split at h
          · next arity => exact ⟨name, at_, args, _, rfl, h', shallowTypes_length read ▸ arity⟩
          · cases h
      · cases found
  | [] | .call _ _ :: _ | .int _ _ :: _ | .char _ _ :: _ | .str _ _ :: _ | .cond _ _ :: _ =>
    cases h

theorem checkAll_eq_ok {args : List Node} (h : checkAll t d args = .ok ()) :
    ∀ n ∈ args, checkNode t d n = .ok () := by
  induction args with
  | nil => simp
  | cons n rest ih =>
    simp only [checkAll] at h
    split at h
    · cases h
    · next first => exact List.forall_mem_cons.2 ⟨first, ih h⟩

theorem checkClauses_eq_ok {clauses : List (Node × Node)}
    (h : checkClauses t d clauses = .ok ()) :
    ∀ c ∈ clauses, checkNode t d c.1 = .ok () ∧ checkNode t d c.2 = .ok () := by
  induction clauses with
  | nil => simp
  | cons c rest ih =>
    simp only [checkClauses] at h
    split at h
    · cases h
    · next condition =>
      split at h
      · cases h
      · next result => exact List.forall_mem_cons.2 ⟨⟨condition, result⟩, ih h⟩

theorem mem_params_of_paramType? {name : String} (h : (d.paramType? name).isSome = true) :
    name ∈ d.params.map (·.name) := by
  simp only [Definition.paramType?, Option.isSome_map, List.find?_isSome, beq_iff_eq] at h
  obtain ⟨p, hp, rfl⟩ := h
  exact List.mem_map_of_mem hp

/-- An expression that passes its check is in scope. -/
theorem Scoped.of_checkNode {n : Node} (h : checkNode t d n = .ok ()) : Scoped t d n := by
  induction n using Node.induction with
  | int value l => exact .int value l
  | char value l => exact .char value l
  | str value l => exact .str value l
  | ident name l =>
    simp only [checkNode] at h
    split at h
    · next known =>
      rw [Bool.or_eq_true] at known
      exact .ident (known.imp_right mem_params_of_paramType?)
    · cases h
  | cond clauses l ih =>
    simp only [checkNode] at h
    have checked := checkClauses_eq_ok h
    exact .cond (fun c hc => (ih c hc).1 (checked c hc).1) (fun c hc => (ih c hc).2 (checked c hc).2)
  | call members l ih =>
    simp only [checkNode] at h
    split at h
    · cases h
    · next call =>
      obtain ⟨name, at_, args, g, rfl, found, arity⟩ := checkCall_eq_ok call
      have checked := checkAll_eq_ok h
      exact .call found arity fun n hn => ih n (List.mem_cons_of_mem _ hn) (checked n hn)

theorem checkFunctions_eq_ok {ds : List Definition} (h : checkFunctions t ds = .ok ()) :
    ∀ d ∈ ds, checkFunction t d = .ok () := by
  induction ds with
  | nil => simp
  | cons d rest ih =>
    simp only [checkFunctions] at h
    split at h
    · cases h
    · next first => exact List.forall_mem_cons.2 ⟨first, ih h⟩

theorem checkFunctions_of_forall {ds : List Definition}
    (each : ∀ d ∈ ds, checkFunction t d = .ok ()) : checkFunctions t ds = .ok () := by
  induction ds with
  | nil => rfl
  | cons d rest ih =>
    obtain ⟨first, later⟩ := List.forall_mem_cons.1 each
    simp only [checkFunctions, first, ih later]

/-- In a valid table, the body of every function is in scope. -/
theorem scoped_of_validate (h : validate t = .ok ()) (hd : d ∈ t.functions) {n : Node}
    (body : d.body = some n) : Scoped t d n := by
  have checked := checkFunctions_eq_ok h d hd
  unfold checkFunction at checked
  split at checked
  · cases checked
  · simp only [body] at checked
    exact .of_checkNode checked

end LittleLisp.Validation
