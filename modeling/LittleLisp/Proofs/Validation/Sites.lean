import LittleLisp.Proofs.Inference.Stage
import LittleLisp.Proofs.Validation.Scope

/-!
# What validation accepts, and what it says otherwise

Validation is said here without the order in which it goes through a body. The nodes that are
evaluated are the body, the arguments of calls and the parts of conditionals (`Evaluated`). Each of
them is in order by itself or not (`InOrder`), and for a node that is refused there is one problem to
report (`Refused`). A table is valid if no parameter has uses that clash and all nodes that are
evaluated are in order; if it is not, the problem is that of some node that is refused
(`validate_iff_inOrder`).

The types of arguments are looked at last. So a call with the wrong number of arguments has that for
its problem, unless it cannot be told what one of its arguments calls.
-/

namespace LittleLisp

/-- The type of an argument as far as it shows: a constant has its own, a call that of the callee's
result, and anything else may have any. -/
def Node.shownType (t : SymbolTable) : Node → ValueType
  | .int _ _ => .integer
  | .char _ _ => .char
  | .str _ _ => .string
  | n => ((n.callee? t).map (·.ret)).getD .any

namespace Validation

/-- A node of a body is evaluated. -/
inductive Evaluated (body : Node) : Node → Prop where
  | body : Evaluated body body
  | argument {first n : Node} {args : List Node} {l : Location}
    (call : Evaluated body (.call (first :: args) l)) (hn : n ∈ args) : Evaluated body n
  | condition {c : Node × Node} {clauses : List (Node × Node)} {l : Location}
    (cond : Evaluated body (.cond clauses l)) (hc : c ∈ clauses) : Evaluated body c.1
  | result {c : Node × Node} {clauses : List (Node × Node)} {l : Location}
    (cond : Evaluated body (.cond clauses l)) (hc : c ∈ clauses) : Evaluated body c.2

/-- A name stands for something in the body of `d`. -/
def Known (d : Definition) (name : String) : Prop :=
  name = nilWord ∨ name = trueWord ∨ name ∈ d.params.map (·.name)

/-- Every argument may be passed where it stands, as far as its type shows. -/
def Fits (t : SymbolTable) (params : List Param) (args : List Node) : Prop :=
  ∀ (i : Nat) (p : Param) (n : Node), params[i]? = some p → args[i]? = some n →
    p.type.isCompatible (n.shownType t) = true

/-- A node in the body of `d` is in order, whatever is inside it. -/
inductive InOrder (t : SymbolTable) (d : Definition) : Node → Prop where
  | int (value : Int) (l : Location) : InOrder t d (.int value l)
  | char (value : Char) (l : Location) : InOrder t d (.char value l)
  | str (value : String) (l : Location) : InOrder t d (.str value l)
  | cond (clauses : List (Node × Node)) (l : Location) : InOrder t d (.cond clauses l)
  | ident {name : String} (l : Location) (known : Known d name) : InOrder t d (.ident name l)
  | call {name : String} {g : Definition} {args : List Node} (at_ l : Location)
    (found : t.lookup name = some g) (arity : args.length = g.params.length)
    (fits : Fits t g.params args) : InOrder t d (.call (.ident name at_ :: args) l)

/-- It cannot be told what a call calls, and this is the problem with it. -/
inductive Unresolved (t : SymbolTable) : Node → Problem → Prop where
  | headless {members : List Node} (l : Location) (headless : Node.head? members = none) :
    Unresolved t (.call members l) ((Fault.notCall (.call members l)).at l)
  | unknown {name : String} (at_ : Location) (args : List Node) (l : Location)
    (missing : t.lookup name = none) :
    Unresolved t (.call (.ident name at_ :: args) l) ((Fault.unknownSymbol name).at at_)

/-- A node is no call, or it can be told what it calls. -/
def Resolved (t : SymbolTable) (n : Node) : Prop :=
  ∀ problem, ¬ Unresolved t n problem

/-- The problem is that of the first of some nodes that is not resolved. -/
def FirstUnresolved (t : SymbolTable) (ns : List Node) (problem : Problem) : Prop :=
  ∃ before n after, ns = before ++ n :: after ∧ (∀ m ∈ before, Resolved t m) ∧
    Unresolved t n problem

/-- A node in the body of `d` is refused with a problem. -/
inductive Refused (t : SymbolTable) (d : Definition) : Node → Problem → Prop where
  | ident {name : String} (l : Location) (unknown : ¬ Known d name) :
    Refused t d (.ident name l) ((Fault.unknownSymbol name).at l)
  | callee {n : Node} {problem : Problem} (unresolved : Unresolved t n problem) :
    Refused t d n problem
  | argument {name : String} {g : Definition} {args : List Node} {problem : Problem}
    (at_ l : Location) (found : t.lookup name = some g)
    (unresolved : FirstUnresolved t args problem) :
    Refused t d (.call (.ident name at_ :: args) l) problem
  | arity {name : String} {g : Definition} {args : List Node} (at_ l : Location)
    (found : t.lookup name = some g) (resolved : ∀ n ∈ args, Resolved t n)
    (differ : args.length ≠ g.params.length) :
    Refused t d (.call (.ident name at_ :: args) l)
      ((Fault.arity g.name g.params.length args.length).at l)
  | mismatch {name : String} {g : Definition} {args : List Node} {i : Nat} {p : Param} {n : Node}
    (at_ l : Location) (found : t.lookup name = some g) (resolved : ∀ n ∈ args, Resolved t n)
    (arity : args.length = g.params.length) (param : g.params[i]? = some p)
    (arg : args[i]? = some n) (before : Fits t (g.params.take i) (args.take i))
    (clash : p.type.isCompatible (n.shownType t) = false) :
    Refused t d (.call (.ident name at_ :: args) l)
      ((Fault.mismatch g.name p.name (i + 1) p.type (n.shownType t)).at n.loc)

variable {t : SymbolTable} {d : Definition}

theorem Evaluated.trans {a b c : Node} (first : Evaluated a b) (later : Evaluated b c) :
    Evaluated a c := by
  induction later with
  | body => exact first
  | argument _ hn ih => exact .argument ih hn
  | condition _ hc ih => exact .condition ih hc
  | result _ hc ih => exact .result ih hc

/-! ## Callees and the types that show -/

theorem callee_eq_ok_iff {members : List Node} {l : Location} {g : Definition} :
    callee t members l = .ok g ↔ (Node.call members l).callee? t = some g := by
  cases members with
  | nil => simp [callee, Node.head?, Node.callee?]
  | cons first args =>
    cases first with
    | int | char | str | call | cond => simp [callee, Node.head?, Node.callee?]
    | ident name at_ =>
      simp only [callee, Node.head?, Node.callee?]
      cases t.lookup name with
      | none => simp
      | some d => simp

theorem unresolved_of_callee {members : List Node} {l : Location} {problem : Problem}
    (h : callee t members l = .error problem) : Unresolved t (.call members l) problem := by
  unfold callee at h
  split at h
  · next headless =>
    obtain rfl := Except.error.inj h
    exact .headless l headless
  · next name at_ headed =>
    split at h
    · cases h
    · next missing =>
      obtain rfl := Except.error.inj h
      obtain ⟨args, rfl⟩ : ∃ args, members = .ident name at_ :: args := by
        unfold Node.head? at headed
        split at headed
        · obtain ⟨rfl, rfl⟩ := Prod.mk.inj (Option.some.inj headed)
          exact ⟨_, rfl⟩
        · cases headed
      exact .unknown at_ args l missing

theorem Unresolved.callee?_eq_none {n : Node} {problem : Problem} (h : Unresolved t n problem) :
    n.callee? t = none := by
  cases h with
  | headless l headless => exact Node.callee?_of_headless l headless
  | unknown at_ args l missing => exact missing

theorem resolved_of_callee? {n : Node} {g : Definition} (found : n.callee? t = some g) :
    Resolved t n := by
  intro problem unresolved
  rw [unresolved.callee?_eq_none] at found
  cases found

/-- The type of an argument shows if the argument is resolved. -/
theorem shallowType_eq_ok {n : Node} {type : ValueType} (h : shallowType t n = .ok type) :
    Resolved t n ∧ type = n.shownType t := by
  cases n with
  | int | char | str | ident | cond =>
    simp only [shallowType, Except.ok.injEq] at h
    subst h
    refine ⟨?_, rfl⟩
    intro problem unresolved
    cases unresolved
  | call members l =>
    simp only [shallowType] at h
    split at h
    · next g found =>
      have called := callee_eq_ok_iff.1 found
      obtain rfl := Except.ok.inj h
      refine ⟨resolved_of_callee? called, ?_⟩
      simp [Node.shownType, called]
    · cases h

theorem shallowType_eq_error {n : Node} {problem : Problem}
    (h : shallowType t n = .error problem) : Unresolved t n problem := by
  cases n with
  | int | char | str | ident | cond => cases h
  | call members l =>
    simp only [shallowType] at h
    split at h
    · cases h
    · next unresolved =>
      obtain rfl := Except.error.inj h
      exact unresolved_of_callee unresolved

theorem shallowTypes_eq_ok {args : List Node} {types : List ValueType}
    (h : shallowTypes t args = .ok types) :
    (∀ n ∈ args, Resolved t n) ∧ types = args.map (Node.shownType t) := by
  induction args generalizing types with
  | nil => exact ⟨by simp, (Except.ok.inj h).symm⟩
  | cons n rest ih =>
    simp only [shallowTypes] at h
    split at h
    · cases h
    · next type first =>
      split at h
      · cases h
      · next later read =>
        obtain rfl := Except.ok.inj h
        obtain ⟨resolved, rfl⟩ := shallowType_eq_ok first
        obtain ⟨each, rfl⟩ := ih read
        exact ⟨List.forall_mem_cons.2 ⟨resolved, each⟩, rfl⟩

theorem shallowTypes_eq_error {args : List Node} {problem : Problem}
    (h : shallowTypes t args = .error problem) : FirstUnresolved t args problem := by
  induction args with
  | nil => cases h
  | cons n rest ih =>
    simp only [shallowTypes] at h
    split at h
    · next first =>
      obtain rfl := Except.error.inj h
      exact ⟨[], n, rest, rfl, by simp, shallowType_eq_error first⟩
    · next type first =>
      split at h
      · next later =>
        obtain rfl := Except.error.inj h
        obtain ⟨before, m, after, rfl, resolved, unresolved⟩ := ih later
        refine ⟨n :: before, m, after, rfl, ?_, unresolved⟩
        exact List.forall_mem_cons.2 ⟨(shallowType_eq_ok first).1, resolved⟩
      · cases h

/-! ## The types of arguments -/

theorem fits_cons {p : Param} {params : List Param} {n : Node} {args : List Node} :
    Fits t (p :: params) (n :: args) ↔
      p.type.isCompatible (n.shownType t) = true ∧ Fits t params args := by
  constructor
  · intro fits
    refine ⟨fits 0 p n rfl rfl, ?_⟩
    intro i q m param arg
    exact fits (i + 1) q m param arg
  · rintro ⟨first, later⟩ i q m param arg
    cases i with
    | zero =>
      obtain rfl := Option.some.inj param
      obtain rfl := Option.some.inj arg
      exact first
    | succ i => exact later i q m param arg

theorem fits_of_checkTypes {function : String} {i : Nat} {params : List Param} {args : List Node}
    (h : checkTypes function i params args (args.map (Node.shownType t)) = .ok ()) :
    Fits t params args := by
  induction params generalizing i args with
  | nil => exact fun _ _ _ param => by simp at param
  | cons p params ih =>
    cases args with
    | nil => exact fun _ _ _ _ arg => by simp at arg
    | cons n args =>
      simp only [List.map_cons, checkTypes] at h
      split at h
      · next first => exact fits_cons.2 ⟨first, ih h⟩
      · cases h

/-- The first argument that may not be passed where it stands decides the problem. -/
theorem clash_of_checkTypes {function : String} {k : Nat} {params : List Param} {args : List Node}
    {problem : Problem}
    (h : checkTypes function k params args (args.map (Node.shownType t)) = .error problem) :
    ∃ (i : Nat) (p : Param) (n : Node), params[i]? = some p ∧ args[i]? = some n ∧
      Fits t (params.take i) (args.take i) ∧ p.type.isCompatible (n.shownType t) = false ∧
        problem = (Fault.mismatch function p.name (k + i) p.type (n.shownType t)).at n.loc := by
  induction params generalizing k args with
  | nil => cases h
  | cons p params ih =>
    cases args with
    | nil => cases h
    | cons n args =>
      simp only [List.map_cons, checkTypes] at h
      split at h
      · next first =>
        obtain ⟨i, q, m, param, arg, before, clash, rfl⟩ := ih h
        refine ⟨i + 1, q, m, param, arg, fits_cons.2 ⟨first, before⟩, clash, ?_⟩
        rw [Nat.add_assoc, Nat.add_comm 1 i]
      · next clash =>
        obtain rfl := Except.error.inj h
        exact ⟨0, p, n, rfl, rfl, fun _ _ _ param => by simp at param, by simpa using clash, rfl⟩

/-! ## Single nodes -/

/-- What the callee of a call is and what the types of its arguments are comes before everything
else that is checked. -/
theorem checkCall_of_callee {name : String} {g : Definition} {args : List Node} (at_ l : Location)
    (found : t.lookup name = some g) :
    (∃ problem, FirstUnresolved t args problem ∧
      checkCall t (.ident name at_ :: args) l = .error problem) ∨
    (∀ n ∈ args, Resolved t n) ∧ checkCall t (.ident name at_ :: args) l =
      if args.length = g.params.length then
        checkTypes g.name 1 g.params args (args.map (Node.shownType t))
      else .error ((Fault.arity g.name g.params.length args.length).at l) := by
  have called : callee t (.ident name at_ :: args) l = .ok g := callee_eq_ok_iff.2 found
  simp only [checkCall, called, List.tail_cons]
  cases read : shallowTypes t args with
  | error problem => exact .inl ⟨problem, shallowTypes_eq_error read, rfl⟩
  | ok types =>
    obtain ⟨resolved, rfl⟩ := shallowTypes_eq_ok read
    exact .inr ⟨resolved, by simp only [List.length_map]⟩

theorem inOrder_of_checkCall {members : List Node} {l : Location}
    (h : checkCall t members l = .ok ()) : InOrder t d (.call members l) := by
  obtain ⟨name, at_, args, g, rfl, found, arity⟩ := checkCall_eq_ok h
  rcases checkCall_of_callee at_ l found with ⟨problem, -, failed⟩ | ⟨-, same⟩
  · rw [failed] at h
    cases h
  · rw [same, if_pos arity] at h
    exact .call at_ l found arity (fits_of_checkTypes h)

theorem refused_of_checkCall {members : List Node} {l : Location} {problem : Problem}
    (h : checkCall t members l = .error problem) : Refused t d (.call members l) problem := by
  cases called : callee t members l with
  | error unresolved =>
    simp only [checkCall, called] at h
    obtain rfl := Except.error.inj h
    exact .callee (unresolved_of_callee called)
  | ok g =>
    have found := callee_eq_ok_iff.1 called
    unfold Node.callee? at found
    split at found
    · next name at_ args l' shape =>
      obtain ⟨rfl, rfl⟩ := Node.call.inj shape
      rcases checkCall_of_callee at_ l found with
        ⟨first, unresolved, failed⟩ | ⟨resolved, same⟩
      · obtain rfl := Except.error.inj (failed.symm.trans h)
        exact .argument at_ l found unresolved
      · rw [same] at h
        split at h
        · next arity =>
          obtain ⟨i, p, n, param, arg, before, clash, rfl⟩ := clash_of_checkTypes h
          rw [Nat.add_comm 1 i]
          exact .mismatch at_ l found resolved arity param arg before clash
        · next differ =>
          obtain rfl := Except.error.inj h
          exact .arity at_ l found resolved differ
    · cases found

theorem known_iff {name : String} :
    (isLiteralName name || (d.paramType? name).isSome) = true ↔ Known d name := by
  have param : (d.paramType? name).isSome = true ↔ name ∈ d.params.map (·.name) := by
    simp [Definition.paramType?, List.find?_isSome]
  simp only [isLiteralName, Bool.or_eq_true, beq_iff_eq, param, Known, or_assoc]

/-! ## Expressions -/

theorem inOrder_of_checkNode {n : Node} (h : checkNode t d n = .ok ()) : InOrder t d n := by
  cases n with
  | int value l => exact .int value l
  | char value l => exact .char value l
  | str value l => exact .str value l
  | cond clauses l => exact .cond clauses l
  | ident name l =>
    simp only [checkNode] at h
    split at h
    · next known => exact .ident l (known_iff.1 known)
    · cases h
  | call members l =>
    simp only [checkNode] at h
    split at h
    · cases h
    · next checked => exact inOrder_of_checkCall checked

/-- All that is evaluated in an expression that passes its check passes it too. -/
theorem Evaluated.checkNode_eq_ok {n m : Node} (evaluated : Evaluated n m)
    (h : checkNode t d n = .ok ()) : checkNode t d m = .ok () := by
  induction evaluated with
  | body => exact h
  | argument _ hn ih =>
    simp only [checkNode] at ih
    split at ih
    · cases ih
    · exact checkAll_eq_ok ih _ hn
  | condition _ hc ih =>
    simp only [checkNode] at ih
    exact (checkClauses_eq_ok ih _ hc).1
  | result _ hc ih =>
    simp only [checkNode] at ih
    exact (checkClauses_eq_ok ih _ hc).2

theorem checkAll_eq_error {ns : List Node} {problem : Problem}
    (h : checkAll t d ns = .error problem) : ∃ n ∈ ns, checkNode t d n = .error problem := by
  induction ns with
  | nil => cases h
  | cons n rest ih =>
    simp only [checkAll] at h
    split at h
    · next first => exact ⟨n, by simp, Except.error.inj h ▸ first⟩
    · obtain ⟨m, hm, failed⟩ := ih h
      exact ⟨m, List.mem_cons_of_mem _ hm, failed⟩

theorem checkClauses_eq_error {clauses : List (Node × Node)} {problem : Problem}
    (h : checkClauses t d clauses = .error problem) :
    ∃ c ∈ clauses, checkNode t d c.1 = .error problem ∨ checkNode t d c.2 = .error problem := by
  induction clauses with
  | nil => cases h
  | cons c rest ih =>
    simp only [checkClauses] at h
    split at h
    · next first => exact ⟨c, by simp, .inl (Except.error.inj h ▸ first)⟩
    · split at h
      · next second => exact ⟨c, by simp, .inr (Except.error.inj h ▸ second)⟩
      · obtain ⟨c', hc, failed⟩ := ih h
        exact ⟨c', List.mem_cons_of_mem _ hc, failed⟩

/-- The problem of an expression is that of a node that is evaluated in it. -/
theorem exists_refused_of_checkNode {n : Node} {problem : Problem}
    (h : checkNode t d n = .error problem) : ∃ m, Evaluated n m ∧ Refused t d m problem := by
  induction n using Node.induction with
  | int | char | str =>
    simp only [checkNode] at h
    cases h
  | ident name l =>
    simp only [checkNode] at h
    split at h
    · cases h
    · next unknown =>
      obtain rfl := Except.error.inj h
      exact ⟨_, .body, .ident l (mt known_iff.2 unknown)⟩
  | call members l ih =>
    simp only [checkNode] at h
    split at h
    · next failed =>
      obtain rfl := Except.error.inj h
      exact ⟨_, .body, refused_of_checkCall failed⟩
    · cases members with
      | nil => cases h
      | cons first args =>
        obtain ⟨n, hn, failed⟩ := checkAll_eq_error h
        obtain ⟨m, inside, refused⟩ := ih n (List.mem_cons_of_mem _ hn) failed
        exact ⟨m, .trans (.argument .body hn) inside, refused⟩
  | cond clauses l ih =>
    simp only [checkNode] at h
    obtain ⟨c, hc, failed | failed⟩ := checkClauses_eq_error h
    · obtain ⟨m, inside, refused⟩ := (ih c hc).1 failed
      exact ⟨m, .trans (.condition .body hc) inside, refused⟩
    · obtain ⟨m, inside, refused⟩ := (ih c hc).2 failed
      exact ⟨m, .trans (.result .body hc) inside, refused⟩

theorem Unresolved.not_inOrder {n : Node} {problem : Problem} (h : Unresolved t n problem) :
    ¬ InOrder t d n := by
  intro order
  cases h with
  | headless l headless =>
    cases order
    cases headless
  | unknown at_ args l missing =>
    cases order with
    | call _ _ found =>
      rw [missing] at found
      cases found

/-- Where a node is refused, some node is not in order: the node itself or one of its arguments. -/
theorem Refused.exists_not_inOrder {body n : Node} {problem : Problem} (h : Refused t d n problem)
    (evaluated : Evaluated body n) : ∃ m, Evaluated body m ∧ ¬ InOrder t d m := by
  cases h with
  | ident l unknown =>
    refine ⟨_, evaluated, ?_⟩
    rintro ⟨⟩
    contradiction
  | callee unresolved => exact ⟨n, evaluated, unresolved.not_inOrder⟩
  | argument at_ l found unresolved =>
    obtain ⟨before, n, after, rfl, -, unresolved⟩ := unresolved
    exact ⟨n, .argument evaluated (by simp), unresolved.not_inOrder⟩
  | arity at_ l found resolved differ =>
    refine ⟨_, evaluated, ?_⟩
    rintro (_ | _ | _ | _ | _ | ⟨-, -, found', arity, -⟩)
    obtain rfl := Option.some.inj (found.symm.trans found')
    exact differ arity
  | mismatch at_ l found resolved arity param arg before clash =>
    refine ⟨_, evaluated, ?_⟩
    rintro (_ | _ | _ | _ | _ | ⟨-, -, found', -, fits⟩)
    obtain rfl := Option.some.inj (found.symm.trans found')
    rw [fits _ _ _ param arg] at clash
    cases clash

/-- A call with the wrong number of arguments is refused for that, or for the first argument of which
it cannot be told what it calls. -/
theorem Refused.of_wrong_arity {name : String} {g : Definition} {args : List Node}
    {at_ l : Location} {problem : Problem} (h : Refused t d (.call (.ident name at_ :: args) l) problem)
    (found : t.lookup name = some g) (differ : args.length ≠ g.params.length) :
    (∀ n ∈ args, Resolved t n) ∧
        problem = (Fault.arity g.name g.params.length args.length).at l ∨
      FirstUnresolved t args problem := by
  cases h with
  | callee unresolved =>
    cases unresolved with
    | headless _ headless => cases headless
    | unknown _ _ _ missing =>
      rw [missing] at found
      cases found
  | argument _ _ _ unresolved => exact .inr unresolved
  | arity _ _ found' resolved _ =>
    obtain rfl := Option.some.inj (found.symm.trans found')
    exact .inl ⟨resolved, rfl⟩
  | mismatch _ _ found' _ arity =>
    obtain rfl := Option.some.inj (found.symm.trans found')
    exact absurd arity differ

/-- The check of a call with the wrong number of arguments ends with what the call itself is refused
for, and what is inside its arguments is not checked. -/
theorem exists_refused_of_wrong_arity {name : String} {g : Definition} {args : List Node}
    (at_ l : Location) (found : t.lookup name = some g) (differ : args.length ≠ g.params.length) :
    ∃ problem, checkNode t d (.call (.ident name at_ :: args) l) = .error problem ∧
      Refused t d (.call (.ident name at_ :: args) l) problem := by
  cases checked : checkCall t (.ident name at_ :: args) l with
  | ok =>
    have order : InOrder t d (.call (.ident name at_ :: args) l) := inOrder_of_checkCall checked
    cases order with
    | call _ _ found' arity =>
      obtain rfl := Option.some.inj (found.symm.trans found')
      exact absurd arity differ
  | error problem =>
    refine ⟨problem, ?_, refused_of_checkCall checked⟩
    simp only [checkNode, checked]

theorem Unresolved.kind_eq {n : Node} {problem : Problem} (h : Unresolved t n problem) :
    problem.fault.kind = .structural ∨ problem.fault.kind = .unknownSymbol := by
  cases h with
  | headless => exact .inl rfl
  | unknown => exact .inr rfl

/-! ## Tables -/

theorem conflict_or_refused_of_checkFunction {problem : Problem} (body : d.body.isSome = true)
    (h : checkFunction t d = .error problem) :
    (∃ p ∈ d.params, p.type = .nothing ∧ problem = ⟨.conflict d.name p.name, d.loc⟩) ∨
      ∃ body, d.body = some body ∧ ∃ m, Evaluated body m ∧ Refused t d m problem := by
  obtain ⟨body, written⟩ := Option.isSome_iff_exists.1 body
  unfold checkFunction at h
  split at h
  · next p found =>
    obtain rfl := Except.error.inj h
    exact .inl ⟨p, List.mem_of_find?_eq_some found, by simpa using List.find?_some found, rfl⟩
  · simp only [written] at h
    exact .inr ⟨body, written, exists_refused_of_checkNode h⟩

theorem inOrder_of_checkFunction (h : checkFunction t d = .ok ()) :
    (∀ p ∈ d.params, p.type ≠ .nothing) ∧
      ∀ body, d.body = some body → ∀ m, Evaluated body m → InOrder t d m := by
  unfold checkFunction at h
  split at h
  · cases h
  · next none =>
    refine ⟨?_, ?_⟩
    · intro p hp
      simpa using List.find?_eq_none.1 none p hp
    · intro body written m evaluated
      simp only [written] at h
      exact inOrder_of_checkNode (evaluated.checkNode_eq_ok h)

theorem checkFunctions_eq_error {ds : List Definition} {problem : Problem}
    (h : checkFunctions t ds = .error problem) : ∃ d ∈ ds, checkFunction t d = .error problem := by
  induction ds with
  | nil => cases h
  | cons d rest ih =>
    simp only [checkFunctions] at h
    split at h
    · next first => exact ⟨d, by simp, Except.error.inj h ▸ first⟩
    · obtain ⟨e, he, failed⟩ := ih h
      exact ⟨e, List.mem_cons_of_mem _ he, failed⟩

/-- The problem of a table is a parameter with uses that clash, or that of a node that is refused. -/
theorem conflict_or_refused_of_validate (sound : t.Sound) {problem : Problem}
    (h : validate t = .error problem) :
    (∃ d ∈ t.functions, ∃ p ∈ d.params, p.type = .nothing ∧
      problem = ⟨.conflict d.name p.name, d.loc⟩) ∨
    ∃ d ∈ t.functions, ∃ body, d.body = some body ∧
      ∃ m, Evaluated body m ∧ Refused t d m problem := by
  obtain ⟨d, hd, failed⟩ := checkFunctions_eq_error h
  rcases conflict_or_refused_of_checkFunction (sound.isFunction hd).body failed with clash | refused
  · exact .inl ⟨d, hd, clash⟩
  · exact .inr ⟨d, hd, refused⟩

/-- A table of a program, after any number of rounds, is valid if no parameter has uses that clash
and every node that is evaluated is in order. Otherwise the problem is such a parameter, or it is the
problem of a node that is refused. The check of a call with the wrong number of arguments fails with
what the call itself is refused for, and that is never a type: it is the number, or the first argument
that is itself a call of nothing or of something unknown. -/
theorem validate_iff_inOrder {forms : List Node} {start : SymbolTable}
    (build : SymbolTable.ofForms forms = .ok start) (n : Nat)
    (rounds : Inference.round^[n] start = t) :
    (validate t = .ok () ↔
      (∀ d ∈ t.functions, ∀ p ∈ d.params, p.type ≠ .nothing) ∧
      ∀ d ∈ t.functions, ∀ body, d.body = some body → ∀ m, Evaluated body m → InOrder t d m) ∧
    (∀ problem, validate t = .error problem →
      (∃ d ∈ t.functions, ∃ p ∈ d.params, p.type = .nothing ∧
        problem = ⟨.conflict d.name p.name, d.loc⟩) ∨
      ∃ d ∈ t.functions, ∃ body, d.body = some body ∧
        ∃ m, Evaluated body m ∧ Refused t d m problem) ∧
    ∀ (d : Definition) (name : String) (g : Definition) (args : List Node) (at_ l : Location),
      t.lookup name = some g → args.length ≠ g.params.length →
        (∃ problem, checkNode t d (.call (.ident name at_ :: args) l) = .error problem ∧
          Refused t d (.call (.ident name at_ :: args) l) problem) ∧
        ∀ problem, Refused t d (.call (.ident name at_ :: args) l) problem →
          problem.fault.kind ≠ .mismatch ∧
          ((∀ n ∈ args, Resolved t n) ∧
              problem = (Fault.arity g.name g.params.length args.length).at l ∨
            FirstUnresolved t args problem ∧
              (problem.fault.kind = .structural ∨ problem.fault.kind = .unknownSymbol)) := by
  have sound : t.Sound := rounds ▸ Inference.sound_iterate (SymbolTable.sound_ofForms build) n
  refine ⟨⟨?_, ?_⟩, fun problem => conflict_or_refused_of_validate sound, ?_⟩
  · intro valid
    have each (d : Definition) (hd : d ∈ t.functions) :=
      inOrder_of_checkFunction (checkFunctions_eq_ok valid d hd)
    exact ⟨fun d hd => (each d hd).1, fun d hd => (each d hd).2⟩
  · rintro ⟨agree, order⟩
    cases checked : validate t with
    | ok => rfl
    | error problem =>
      rcases conflict_or_refused_of_validate sound checked with
        ⟨d, hd, p, hp, clash, -⟩ | ⟨d, hd, body, written, m, evaluated, refused⟩
      · exact absurd clash (agree d hd p hp)
      · obtain ⟨m, evaluated, disorder⟩ := refused.exists_not_inOrder evaluated
        exact absurd (order d hd body written m evaluated) disorder
  · intro d name g args at_ l found differ
    refine ⟨exists_refused_of_wrong_arity at_ l found differ, ?_⟩
    intro problem refused
    rcases refused.of_wrong_arity found differ with ⟨resolved, rfl⟩ | first
    · exact ⟨nofun, .inl ⟨resolved, rfl⟩⟩
    · obtain ⟨_, _, _, -, -, unresolved⟩ := id first
      refine ⟨?_, .inr ⟨first, unresolved.kind_eq⟩⟩
      rcases unresolved.kind_eq with kind | kind <;> simp [kind]

open Sample

/-- The call of a function of two parameters with one argument, which is of the wrong type as well. -/
def shortCall : Node :=
  form [name "plus", .str "1" here]

/-- Two functions, the second of which calls the first one so. -/
def shortForms : List Node :=
  [defun "plus" ["x", "y"] (form [name "+", name "x", name "y"]), defun "short" [] shortCall]

theorem validate_iff_inOrder_short : ∃ t, SymbolTable.ofForms shortForms = .ok t ∧
    (∃ problem, validate (Inference.round^[2] t) = .error problem ∧ problem.fault.kind = .arity ∧
      ∃ d ∈ (Inference.round^[2] t).functions, ∃ body, d.body = some body ∧
        ∃ m, Evaluated body m ∧ Refused (Inference.round^[2] t) d m problem) ∧
    ∀ d, ∃ problem, checkNode (Inference.round^[2] t) d shortCall = .error problem ∧
      problem.fault.kind ≠ .mismatch := by
  obtain ⟨t, build, checked⟩ : ∃ t, SymbolTable.ofForms shortForms = .ok t ∧
      ((validate (Inference.round^[2] t)).mapError (·.fault.kind),
        ((Inference.round^[2] t).lookup "plus").map (·.params.length)) =
          (.error Fault.Kind.arity, some 2) :=
    exists_eq_ok (by decide +kernel)
  obtain ⟨failed, known⟩ := Prod.mk.inj checked
  obtain ⟨problem, invalid, kind⟩ := exists_eq_error (congrArg (Except.map fun _ => ()) failed)
  obtain ⟨g, found, two⟩ := Option.map_eq_some_iff.1 known
  obtain ⟨-, blame, calls⟩ := validate_iff_inOrder build 2 rfl
  refine ⟨t, build, ⟨problem, invalid, kind, ?_⟩, ?_⟩
  · rcases blame problem invalid with ⟨d, -, p, -, -, rfl⟩ | refused
    · cases kind
    · exact refused
  · intro d
    obtain ⟨⟨problem, failed, refused⟩, reported⟩ :=
      calls d "plus" g [.str "1" here] here here found (by simp [two])
    exact ⟨problem, failed, (reported problem refused).1⟩

end Validation

end LittleLisp
