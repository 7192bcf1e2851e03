import LittleLisp.Lowering
import LittleLisp.Proofs.SymbolTable.Sound
import LittleLisp.Proofs.Tree.Induction
import Mathlib.Data.List.Forall2

/-!
# What lowering can do

`Lowers t s n e` says that the tree `n` becomes the C expression `e`. It has one constructor for
each way in which that happens, guards included, and none of the ways in which lowering fails.
`Lowers.of_expr` is the inversion of the functions that lower: what is proved about lowered
expressions is proved by cases on this relation, and the functions are not opened again.
-/

namespace LittleLisp.Lowering

/-- Clauses become nested choices. The condition of the last clause is dropped. -/
inductive LowersChoices (R : Node → C.Expr → Prop) : List (Node × Node) → C.Expr → Prop
  | last {condition result : Node} {e : C.Expr} : R result e →
      LowersChoices R [(condition, result)] e
  | more {condition result : Node} {next : Node × Node} {rest : List (Node × Node)}
      {c yes no : C.Expr} : R condition c → R result yes → LowersChoices R (next :: rest) no →
      LowersChoices R ((condition, result) :: next :: rest) (.choice c yes no)

/-- A tree becomes a C expression. -/
inductive Lowers (t : SymbolTable) (s : Settings) : Node → C.Expr → Prop
  | int (value : Int) (l : Location) : Lowers t s (.int value l) (.int value)
  | char (value : Char) (l : Location) : Lowers t s (.char value l) (.char value)
  | str (value : String) (l : Location) : Lowers t s (.str value l) (.str value)
  | ident (name : String) (l : Location) : Lowers t s (.ident name l) (.ident (spell s name))
  | cond {clauses : List (Node × Node)} {l : Location} {e : C.Expr} :
      isClosed clauses = true → LowersChoices (Lowers t s) clauses e →
      Lowers t s (.cond clauses l) e
  /-- A choice on a constant that is not zero. -/
  | taken {name : String} {value : Int} {yes no : Node} {at_ k l : Location} {e : C.Expr} :
      t.lookup name = some (Definition.ofBuiltin .choice) → value ≠ 0 → Lowers t s yes e →
      Lowers t s (.call [.ident name at_, .int value k, yes, no] l) e
  /-- A choice on the constant zero. -/
  | skipped {name : String} {yes no : Node} {at_ k l : Location} {e : C.Expr} :
      t.lookup name = some (Definition.ofBuiltin .choice) → Lowers t s no e →
      Lowers t s (.call [.ident name at_, .int 0 k, yes, no] l) e
  | choice {name : String} {condition yes no : Node} {at_ l : Location} {c y n : C.Expr} :
      t.lookup name = some (Definition.ofBuiltin .choice) →
      leadingInt? [condition, yes, no] = none → Lowers t s condition c → Lowers t s yes y →
      Lowers t s no n →
      Lowers t s (.call [.ident name at_, condition, yes, no] l) (.choice c y n)
  | binary {name : String} {op : BinaryOp} {left right : Node} {at_ l : Location}
      {a b : C.Expr} :
      t.lookup name = some (Definition.ofBuiltin (.binary op)) → Lowers t s left a →
      Lowers t s right b → Lowers t s (.call [.ident name at_, left, right] l) (.binary op a b)
  | list {name : String} {op : ListOp} {args : List Node} {at_ l : Location}
      {es : List C.Expr} :
      t.lookup name = some (Definition.ofBuiltin (.list op)) → args.length = op.arity →
      List.Forall₂ (Lowers t s) args es →
      Lowers t s (.call (.ident name at_ :: args) l) (.call op.runtimeName es)
  | call {name : String} {d : Definition} {args : List Node} {at_ l : Location}
      {es : List C.Expr} :
      t.lookup name = some d → d.isBuiltin = false → List.Forall₂ (Lowers t s) args es →
      Lowers t s (.call (.ident name at_ :: args) l) (.call (spell s d.name) es)

/-- A clause of a body becomes a condition and a result. -/
def LowersClause (t : SymbolTable) (s : Settings) (source : Node × Node)
    (clause : C.Expr × C.Expr) : Prop :=
  Lowers t s source.1 clause.1 ∧ Lowers t s source.2 clause.2

/-- What ends the cascade of the function `name`: the trap, unless a clause catches every case or
the settings want none. -/
def trapOf (s : Settings) (name : String) (clauses : List (Node × Node)) : Option String :=
  if s.fallback = .trap && !clauses.any (fun c => c.1.isCatchAll) then some name else none

/-- The body of the function `name` becomes a C body. -/
inductive LowersBody (t : SymbolTable) (s : Settings) (name : String) : Node → C.Body → Prop
  | value {n : Node} {e : C.Expr} : (∀ clauses l, n ≠ .cond clauses l) → Lowers t s n e →
      LowersBody t s name n (.value e)
  | cascade {clauses : List (Node × Node)} {l : Location} {lowered : List (C.Expr × C.Expr)} :
      List.Forall₂ (LowersClause t s) clauses lowered →
      LowersBody t s name (.cond clauses l) (.cascade lowered (trapOf s name clauses))

/-! ## Inversion of the functions that lower -/

variable {t : SymbolTable} {s : Settings}

theorem gather_exprs {args : List Node} {es : List C.Expr}
    (lowers : ∀ n ∈ args, ∀ e, expr t s n = .ok e → Lowers t s n e)
    (h : gather (exprs t s args) = .ok es) : List.Forall₂ (Lowers t s) args es := by
  induction args generalizing es with
  | nil =>
    obtain rfl := Except.ok.inj h
    exact .nil
  | cons n rest ih =>
    simp only [exprs] at h
    cases first : expr t s n with
    | error problem => simp [first, gather] at h
    | ok e =>
      cases later : gather (exprs t s rest) with
      | error problem => simp [first, later, gather] at h
      | ok tail =>
        simp only [first, later, gather] at h
        obtain rfl := Except.ok.inj h
        exact .cons (lowers n (by simp) e first)
          (ih (fun m hm => lowers m (List.mem_cons_of_mem _ hm)) later)

theorem lowersChoices_of_choices {clauses : List (Node × Node)} {e : C.Expr}
    (lowers : ∀ c ∈ clauses, (∀ e, expr t s c.1 = .ok e → Lowers t s c.1 e) ∧
      ∀ e, expr t s c.2 = .ok e → Lowers t s c.2 e)
    (h : choices t s clauses = .ok e) : LowersChoices (Lowers t s) clauses e := by
  induction clauses generalizing e with
  | nil => cases h
  | cons c rest ih =>
    obtain ⟨condition, result⟩ := c
    have first := lowers (condition, result) (by simp)
    cases rest with
    | nil => exact .last (first.2 e (by simpa [choices] using h))
    | cons next rest =>
      simp only [choices] at h
      split at h
      · cases h
      · next no later =>
        split at h
        · cases h
        · next c test =>
          split at h
          · cases h
          · next yes value =>
            obtain rfl := Except.ok.inj h
            exact .more (first.1 c test) (first.2 yes value)
              (ih (fun x hx => lowers x (List.mem_cons_of_mem _ hx)) later)

theorem leadingInt?_eq_some {n : Node} {rest : List Node} {value : Int}
    (h : leadingInt? (n :: rest) = some value) : ∃ k, n = .int value k := by
  cases n with
  | int v k => exact ⟨k, by simpa [leadingInt?] using h⟩
  | call | char | str | ident | cond => cases h

theorem operatorCall_gather {d : Definition} {l : Location} {args : List Node} {e : C.Expr}
    (lowers : ∀ n ∈ args, ∀ e, expr t s n = .ok e → Lowers t s n e)
    (h : (match gather (exprs t s args) with
      | .ok es => operatorCall d l es
      | .error problem => .error problem) = .ok e) :
    ∃ es, List.Forall₂ (Lowers t s) args es ∧ operatorCall d l es = .ok e := by
  split at h
  · next es gathered => exact ⟨es, gather_exprs lowers gathered, h⟩
  · cases h

/-- A call of a library operator that is lowered. -/
theorem lowers_of_builtinCall {name : String} {at_ l : Location} {op : Builtin}
    {args : List Node} {e : C.Expr} (listed : op ∈ Builtin.library)
    (found : t.lookup name = some (Definition.ofBuiltin op))
    (lowers : ∀ n ∈ args, ∀ e, expr t s n = .ok e → Lowers t s n e)
    (h : builtinCall (Definition.ofBuiltin op) l args (exprs t s args) = .ok e) :
    Lowers t s (.call (.ident name at_ :: args) l) e := by
  unfold builtinCall at h
  split at h
  · cases h
  next arity =>
  have arity : args.length = op.paramTypes.length := by
    simpa [Definition.ofBuiltin] using arity
  cases op with
  | choice =>
    obtain ⟨condition, yes, no, rfl⟩ := List.length_eq_three.1 arity
    cases constant : leadingInt? [condition, yes, no] with
    | some value =>
      obtain ⟨k, rfl⟩ := leadingInt?_eq_some constant
      simp only [constant, exprs, Definition.ofBuiltin, List.headD] at h
      split at h
      · next nonzero => exact .taken found nonzero (lowers yes (by simp) e h)
      · next zero =>
        obtain rfl : value = 0 := by omega
        exact .skipped found (lowers no (by simp) e h)
    | none =>
      simp only [constant] at h
      obtain ⟨es, lowered, h⟩ := operatorCall_gather lowers h
      obtain ⟨c, y, n, rfl, hc, hy, hn⟩ : ∃ c y n, es = [c, y, n] ∧ Lowers t s condition c ∧
          Lowers t s yes y ∧ Lowers t s no n := by
        cases lowered with
        | cons hc rest => cases rest with
          | cons hy rest => cases rest with
            | cons hn rest =>
              cases rest
              exact ⟨_, _, _, rfl, hc, hy, hn⟩
      obtain rfl := Except.ok.inj h
      exact .choice found constant hc hy hn
  | binary op =>
    obtain ⟨left, right, rfl⟩ := List.length_eq_two.1 arity
    obtain ⟨es, lowered, h⟩ := operatorCall_gather lowers h
    cases lowered with
    | cons ha rest => cases rest with
      | cons hb rest =>
        cases rest
        obtain rfl := Except.ok.inj h
        exact .binary found ha hb
  | list op =>
    obtain ⟨es, lowered, h⟩ := operatorCall_gather lowers h
    obtain rfl := Except.ok.inj h
    exact .list found (by simpa [Builtin.paramTypes] using arity) lowered
  | foreign code => simp [Builtin.library] at listed

/-- An expression that is lowered becomes what the relation says. -/
theorem Lowers.of_expr (sound : t.Sound) {n : Node} {e : C.Expr} (h : expr t s n = .ok e) :
    Lowers t s n e := by
  induction n using Node.induction generalizing e with
  | int value l =>
    obtain rfl := Except.ok.inj h
    exact .int value l
  | char value l =>
    obtain rfl := Except.ok.inj h
    exact .char value l
  | str value l =>
    obtain rfl := Except.ok.inj h
    exact .str value l
  | ident name l =>
    obtain rfl := Except.ok.inj h
    exact .ident name l
  | cond clauses l ih =>
    simp only [expr] at h
    split at h
    · next closed => exact .cond closed (lowersChoices_of_choices
        (fun c hc => ⟨fun _ => (ih c hc).1, fun _ => (ih c hc).2⟩) h)
    · cases h
  | call members l ih =>
    match members with
    | .ident name at_ :: args =>
      have lowers : ∀ n ∈ args, ∀ e, expr t s n = .ok e → Lowers t s n e :=
        fun n hn e he => ih n (List.mem_cons_of_mem _ hn) he
      simp only [expr] at h
      split at h
      · cases h
      · next d found =>
        split at h
        · next builtin =>
          obtain ⟨op, listed, rfl⟩ := sound.operator_of_lookup found builtin
          exact lowers_of_builtinCall listed found lowers h
        · next function =>
          split at h
          · next es gathered =>
            obtain rfl := Except.ok.inj h
            exact .call found (by simpa using function) (gather_exprs lowers gathered)
          · cases h
    | [] | .call _ _ :: _ | .int _ _ :: _ | .char _ _ :: _ | .str _ _ :: _ | .cond _ _ :: _ =>
      cases h

theorem lowersClauses_of_clauses (sound : t.Sound) {cs : List (Node × Node)}
    {lowered : List (C.Expr × C.Expr)} (h : clauses t s cs = .ok lowered) :
    List.Forall₂ (LowersClause t s) cs lowered := by
  induction cs generalizing lowered with
  | nil =>
    obtain rfl := Except.ok.inj h
    exact .nil
  | cons c rest ih =>
    simp only [clauses] at h
    split at h
    · cases h
    · next condition test =>
      split at h
      · cases h
      · next result value =>
        split at h
        · cases h
        · next later gathered =>
          obtain rfl := Except.ok.inj h
          exact .cons ⟨.of_expr sound test, .of_expr sound value⟩ (ih gathered)

/-- A body that is lowered becomes what the relation says. -/
theorem LowersBody.of_body (sound : t.Sound) {name : String} {n : Node} {b : C.Body}
    (h : body t s name n = .ok b) : LowersBody t s name n b := by
  unfold body at h
  split at h
  · next clauses l =>
    split at h
    · cases h
    · next lowered gathered =>
      obtain rfl := Except.ok.inj h
      exact .cascade (lowersClauses_of_clauses sound gathered)
  · next other =>
    split at h
    · next e lowered =>
      obtain rfl := Except.ok.inj h
      exact .value other (.of_expr sound lowered)
    · cases h

end LittleLisp.Lowering
