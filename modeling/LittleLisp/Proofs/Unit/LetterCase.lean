import LittleLisp.Proofs.Inference.Locality
import LittleLisp.Proofs.Lowering.Unit
import LittleLisp.Proofs.SymbolTable.LetterCase

/-!
# The case of function names does not matter

Every stage of the compiler commutes with putting function names into lower case: a round of
inference and the test that ends it, validation and lowering find the same definitions for the heads
of calls in a body without case as for those in the body as written, and read no other trace of the
case. So forms that differ only in that case give the same C (`ofForms_of_uncased_eq`).
-/

namespace LittleLisp

/-! ## Inference -/

namespace Inference

theorem usesOfArgs_uncased (args : List Node) (params : List Param) :
    usesOfArgs (args.map Node.uncased) params = usesOfArgs args params := by
  induction args generalizing params with
  | nil => cases params <;> rfl
  | cons arg rest ih =>
    cases params with
    | nil => cases arg <;> rfl
    | cons p params => cases arg <;> simp [usesOfArgs, Node.uncased, ih]

theorem usesOfNode_uncased (t : SymbolTable) (n : Node) :
    usesOfNode t.uncased n.uncased = usesOfNode t n := by
  cases n with
  | int | char | str | ident | cond => rfl
  | call members l =>
    cases members with
    | nil => rfl
    | cons first args =>
      cases first with
      | int | char | str | call | cond => rfl
      | ident name at_ =>
        rw [Node.uncased_call_ident]
        simp only [usesOfNode, SymbolTable.lookup_uncased, SymbolTable.lookup_asciiLower]
        cases t.lookup name with
        | none => rfl
        | some d => exact usesOfArgs_uncased args d.params

/-- What a call says, before all that its members say. -/
theorem uses_call (t : SymbolTable) (members : List Node) (l : Location) :
    uses t (.call members l) = usesOfNode t (.call members l) ++ members.flatMap (uses t) := by
  simp only [uses, Node.walk, Node.walkAll_eq, List.flatMap_cons, List.flatMap_assoc]
  rfl

theorem uses_cond (t : SymbolTable) (clauses : List (Node × Node)) (l : Location) :
    uses t (.cond clauses l) = clauses.flatMap fun c => uses t c.1 ++ uses t c.2 := by
  simp only [uses, Node.walk, Node.walkClauses_eq, List.flatMap_cons, List.flatMap_assoc,
    List.flatMap_append]
  rfl

/-- An identifier says nothing, so the head of a call does not matter to what its members say. -/
theorem flatMap_uses_uncasedHead (t : SymbolTable) (members : List Node) :
    (Node.uncasedHead members).flatMap (uses t) = members.flatMap (uses t) := by
  cases members with
  | nil => rfl
  | cons first rest => cases first <;> rfl

theorem uses_uncased (t : SymbolTable) (n : Node) : uses t.uncased n.uncased = uses t n := by
  induction n using Node.induction with
  | int | char | str | ident => rfl
  | call members l ih =>
    have call := usesOfNode_uncased t (.call members l)
    simp only [Node.uncased, Node.uncasedAll_eq] at call ⊢
    rw [uses_call, uses_call, call, flatMap_uses_uncasedHead, List.flatMap_map,
      List.flatMap_congr ih]
  | cond clauses l ih =>
    have each (c : Node × Node) (hc : c ∈ clauses) :
        uses t.uncased c.1.uncased ++ uses t.uncased c.2.uncased = uses t c.1 ++ uses t c.2 := by
      rw [(ih c hc).1, (ih c hc).2]
    simp only [Node.uncased, Node.uncasedClauses_eq, uses_cond, List.flatMap_map]
    exact List.flatMap_congr each

theorem derive_uncased (t : SymbolTable) (d : Definition) (n : Node) :
    derive t.uncased d.uncased n.uncased = derive t d n := by
  induction n using Node.induction with
  | int | char | str | ident => rfl
  | call members l ih =>
    cases members with
    | nil => rfl
    | cons first args =>
      obtain ⟨-, each⟩ := List.forall_mem_cons.1 ih
      cases first with
      | int | char | str | call | cond => rfl
      | ident name at_ =>
        have types :
            deriveAll t.uncased d.uncased (args.map Node.uncased) = deriveAll t d args := by
          rw [deriveAll_eq, deriveAll_eq, List.map_map]
          exact List.map_congr_left each
        rw [Node.uncased_call_ident]
        simp only [derive, SymbolTable.lookup_uncased, SymbolTable.lookup_asciiLower, types]
        cases t.lookup name <;> rfl
  | cond clauses l ih =>
    simp only [Node.uncased, Node.uncasedClauses_eq, derive]
    induction clauses with
    | nil => rfl
    | cons c rest step =>
      obtain ⟨first, later⟩ := List.forall_mem_cons.1 ih
      simp only [List.map_cons, deriveClauses, first.2, step later]

theorem refine_uncased (t : SymbolTable) (d : Definition) :
    refine t.uncased d.uncased = (refine t d).uncased := by
  cases written : d.body with
  | none => simp only [refine, Definition.uncased_body, written, Option.map_none]
  | some body =>
    have params : refineParams t.uncased body.uncased d.params = refineParams t body d.params := by
      simp only [refineParams, uses_uncased]
    have ret := derive_uncased t { d with params := refineParams t body d.params } body
    simp only [refine, Definition.uncased_body, Definition.uncased_params, written, Option.map_some,
      params]
    simp only [Definition.uncased, written, Option.map_some] at ret ⊢
    rw [ret]

theorem round_uncased (t : SymbolTable) : round t.uncased = (round t).uncased := by
  simp only [round, SymbolTable.uncased, List.map_map, SymbolTable.mk.injEq]
  apply List.map_congr_left
  intro e _
  have refined := refine_uncased t e.definition
  simp only [SymbolTable.uncased] at refined
  cases listed : e.listed with
  | true => simp [SymbolTable.Entry.uncased, listed, refined]
  | false => simp [SymbolTable.Entry.uncased, listed]

/-- Inference takes the same rounds and ends in the same table, bodies apart. -/
theorem run_uncased (t : SymbolTable) (done left : Nat) :
    run t.uncased done left =
      { run t done left with table := (run t done left).table.uncased } := by
  induction left generalizing t done with
  | zero => rfl
  | succ left ih =>
    simp only [run, round_uncased, SymbolTable.sameTypes_uncased]
    split
    · rfl
    · exact ih (round t) (done + 1)

end Inference

/-! ## Validation -/

namespace Node

theorem head?_uncasedHead (members : List Node) :
    head? (uncasedHead (members.map uncased)) =
      (head? members).map fun head => (head.1.toLower, head.2) := by
  cases members with
  | nil => rfl
  | cons first rest => cases first <;> rfl

theorem tail_uncasedHead (members : List Node) :
    (uncasedHead (members.map uncased)).tail = members.tail.map uncased := by
  cases members with
  | nil => rfl
  | cons first rest => cases first <;> rfl

end Node

namespace Validation

theorem callee_uncased (t : SymbolTable) (members : List Node) (l : Location) :
    (callee t.uncased (Node.uncasedHead (members.map Node.uncased)) l).toOption =
      (callee t members l).toOption.map Definition.uncased := by
  simp only [callee, Node.head?_uncasedHead]
  cases Node.head? members with
  | none => rfl
  | some head =>
    simp only [Option.map_some, SymbolTable.lookup_uncased, SymbolTable.lookup_asciiLower]
    cases t.lookup head.1 <;> rfl

theorem shallowType_uncased (t : SymbolTable) (n : Node) :
    (shallowType t.uncased n.uncased).toOption = (shallowType t n).toOption := by
  cases n with
  | int | char | str | ident | cond => rfl
  | call members l =>
    simp only [Node.uncased, Node.uncasedAll_eq, shallowType]
    rcases toOption_eq_map_iff.1 (callee_uncased t members l) with
      ⟨d, found, found'⟩ | ⟨p, q, fails, fails'⟩
    · simp only [found, found', Definition.uncased_ret]
    · simp only [fails, fails', Except.toOption]

theorem shallowTypes_uncased (t : SymbolTable) (args : List Node) :
    (shallowTypes t.uncased (args.map Node.uncased)).toOption = (shallowTypes t args).toOption := by
  induction args with
  | nil => rfl
  | cons n rest ih =>
    simp only [List.map_cons, shallowTypes]
    rcases toOption_eq_iff.1 (shallowType_uncased t n) with
      ⟨type, first, first'⟩ | ⟨p, q, fails, fails'⟩
    · rw [first, first']
      rcases toOption_eq_iff.1 ih with ⟨types, later, later'⟩ | ⟨p, q, fails, fails'⟩
      · simp only [later, later']
      · simp only [fails, fails', Except.toOption]
    · simp only [fails, fails', Except.toOption]

theorem checkTypes_uncased (function : String) (i : Nat) (params : List Param) (args : List Node)
    (types : List ValueType) :
    checkTypes function i params (args.map Node.uncased) types =
      checkTypes function i params args types := by
  induction args generalizing i params types with
  | nil => cases params <;> rfl
  | cons n rest ih =>
    cases params with
    | nil => rfl
    | cons p params =>
      cases types with
      | nil => rfl
      | cons type types => simp only [List.map_cons, checkTypes, Node.loc_uncased, ih]

theorem checkCall_uncased (t : SymbolTable) (members : List Node) (l : Location) :
    (checkCall t.uncased (Node.uncasedHead (members.map Node.uncased)) l).toOption =
      (checkCall t members l).toOption := by
  simp only [checkCall, Node.tail_uncasedHead]
  rcases toOption_eq_map_iff.1 (callee_uncased t members l) with
    ⟨d, found, found'⟩ | ⟨p, q, fails, fails'⟩
  · rw [found, found']
    rcases toOption_eq_iff.1 (shallowTypes_uncased t members.tail) with
      ⟨types, shallow, shallow'⟩ | ⟨p, q, fails, fails'⟩
    · simp only [shallow, shallow', Definition.uncased_name, Definition.uncased_params,
        checkTypes_uncased]
    · simp only [fails, fails']
      rfl
  · simp only [fails, fails', Except.toOption]

theorem checkAll_uncased {t : SymbolTable} {d : Definition} {ns : List Node}
    (each : ∀ n ∈ ns,
      (checkNode t.uncased d.uncased n.uncased).toOption = (checkNode t d n).toOption) :
    (checkAll t.uncased d.uncased (ns.map Node.uncased)).toOption = (checkAll t d ns).toOption := by
  induction ns with
  | nil => rfl
  | cons n rest ih =>
    obtain ⟨first, later⟩ := List.forall_mem_cons.1 each
    simp only [List.map_cons, checkAll]
    rcases toOption_eq_iff.1 first with ⟨_, valid, valid'⟩ | ⟨p, q, fails, fails'⟩
    · rw [valid, valid']
      exact ih later
    · simp only [fails, fails', Except.toOption]

theorem checkArgs_eq (t : SymbolTable) (d : Definition) (members : List Node) :
    checkArgs t d members = checkAll t d members.tail := by
  cases members with
  | nil => simp only [checkArgs, List.tail_nil, checkAll]
  | cons first args => simp only [checkArgs, List.tail_cons]

theorem checkNode_uncased (t : SymbolTable) (d : Definition) (n : Node) :
    (checkNode t.uncased d.uncased n.uncased).toOption = (checkNode t d n).toOption := by
  induction n using Node.induction with
  | int | char | str | ident => rfl
  | call members l ih =>
    simp only [Node.uncased, Node.uncasedAll_eq, checkNode, checkArgs_eq, Node.tail_uncasedHead]
    rcases toOption_eq_iff.1 (checkCall_uncased t members l) with
      ⟨_, valid, valid'⟩ | ⟨p, q, fails, fails'⟩
    · rw [valid, valid']
      exact checkAll_uncased fun n hn => ih n (List.mem_of_mem_tail hn)
    · simp only [fails, fails', Except.toOption]
  | cond clauses l ih =>
    simp only [Node.uncased, Node.uncasedClauses_eq, checkNode]
    induction clauses with
    | nil => rfl
    | cons c rest step =>
      obtain ⟨⟨condition, result⟩, later⟩ := List.forall_mem_cons.1 ih
      simp only [List.map_cons, checkClauses]
      rcases toOption_eq_iff.1 condition with ⟨_, valid, valid'⟩ | ⟨p, q, fails, fails'⟩
      · rw [valid, valid']
        rcases toOption_eq_iff.1 result with ⟨_, valid, valid'⟩ | ⟨p, q, fails, fails'⟩
        · rw [valid, valid']
          exact step later
        · simp only [fails, fails', Except.toOption]
      · simp only [fails, fails', Except.toOption]

theorem checkFunction_uncased (t : SymbolTable) (d : Definition) :
    (checkFunction t.uncased d.uncased).toOption = (checkFunction t d).toOption := by
  simp only [checkFunction, Definition.uncased_params, Definition.uncased_body]
  cases d.params.find? (·.type == .nothing) with
  | some p => rfl
  | none =>
    cases d.body with
    | none => rfl
    | some body => exact checkNode_uncased t d body

theorem validate_uncased (t : SymbolTable) :
    (validate t.uncased).toOption = (validate t).toOption := by
  rw [validate, validate, SymbolTable.functions_uncased]
  induction t.functions with
  | nil => rfl
  | cons d rest ih =>
    simp only [List.map_cons, checkFunctions]
    rcases toOption_eq_iff.1 (checkFunction_uncased t d) with
      ⟨_, valid, valid'⟩ | ⟨p, q, fails, fails'⟩
    · rw [valid, valid']
      exact ih
    · simp only [fails, fails', Except.toOption]

end Validation

/-! ## Lowering -/

namespace Lowering

variable {s : Settings}

theorem gather_of_toOption {α : Type} {xs ys : List (Except Problem α)}
    (same : List.Forall₂ (fun y x => y.toOption = x.toOption) ys xs) :
    (gather ys).toOption = (gather xs).toOption := by
  induction same with
  | nil => rfl
  | cons first _ ih =>
    rcases toOption_eq_iff.1 first with ⟨a, rfl, rfl⟩ | ⟨p, q, rfl, rfl⟩
    · rcases toOption_eq_iff.1 ih with ⟨as, later, later'⟩ | ⟨p, q, fails, fails'⟩
      · simp only [gather, later, later']
      · simp only [gather, fails, fails', Except.toOption]
    · rfl

theorem leadingInt?_uncased (args : List Node) :
    leadingInt? (args.map Node.uncased) = leadingInt? args := by
  cases args with
  | nil => rfl
  | cons n rest => cases n <;> rfl

theorem isClosed_uncased (clauses : List (Node × Node)) :
    isClosed (clauses.map fun c => (c.1.uncased, c.2.uncased)) = isClosed clauses := by
  induction clauses with
  | nil => rfl
  | cons c rest ih =>
    cases rest with
    | nil => exact Node.isCatchAll_uncased c.1
    | cons next rest => exact ih

/-- A choice on a constant lowers the branch that is taken. -/
theorem builtinCall_of_constant {d : Definition} {args : List Node} {value : Int}
    (arity : args.length = d.params.length) (choice : d.operator = some .choice)
    (constant : leadingInt? args = some value) (l : Location) (first yes : Except Problem C.Expr)
    (more : List (Except Problem C.Expr)) :
    builtinCall d l args (first :: yes :: more) =
      if value ≠ 0 then yes else more.headD (.error ((Fault.unsupported d.name).at l)) := by
  unfold builtinCall
  rw [if_neg (not_not.2 arity), choice, constant]

/-- Any other call of an operator lowers all its arguments. -/
theorem builtinCall_of_all {d : Definition} {args : List Node}
    (arity : args.length = d.params.length) {xs : List (Except Problem C.Expr)}
    (all : d.operator = some .choice → ∀ value, leadingInt? args = some value → xs.length < 2)
    (l : Location) : builtinCall d l args xs = (gather xs).bind (operatorCall d l) := by
  unfold builtinCall
  rw [if_neg (not_not.2 arity)]
  split
  · next value first yes more choice constant =>
    have short := all choice value constant
    simp only [List.length_cons] at short
    omega
  · next lowered _ _ _ _ => cases gather lowered <;> rfl

theorem builtinCall_uncased (d : Definition) (l : Location) (args : List Node)
    {xs ys : List (Except Problem C.Expr)}
    (same : List.Forall₂ (fun y x => y.toOption = x.toOption) ys xs) :
    (builtinCall d.uncased l (args.map Node.uncased) ys).toOption =
      (builtinCall d l args xs).toOption := by
  by_cases arity : args.length = d.params.length
  case neg =>
    simp only [builtinCall, List.length_map, Definition.uncased_params, if_pos arity,
      Except.toOption]
  have arity' : (args.map Node.uncased).length = d.uncased.params.length := by
    rwa [List.length_map, Definition.uncased_params]
  by_cases all : d.operator = some .choice → ∀ value, leadingInt? args = some value → xs.length < 2
  · rw [builtinCall_of_all arity all, builtinCall_of_all arity']
    · exact toOption_bind_congr (gather_of_toOption same) _
    · rwa [Definition.uncased_operator, leadingInt?_uncased, same.length_eq]
  · -- Only a choice on a constant does without one of the arguments.
    push Not at all
    obtain ⟨choice, value, constant, long⟩ := all
    have constant' : leadingInt? (args.map Node.uncased) = some value := by
      rw [leadingInt?_uncased, constant]
    cases same with
    | nil => cases long
    | cons first rest =>
      cases rest with
      | nil => simp at long
      | cons yes more =>
        rw [builtinCall_of_constant arity choice constant,
          builtinCall_of_constant arity' (by rwa [Definition.uncased_operator]) constant']
        split
        · exact yes
        · cases more with
          | nil => rfl
          | cons no _ => exact no

theorem exprs_uncased {t : SymbolTable} {ns : List Node}
    (each : ∀ n ∈ ns, (expr t.uncased s n.uncased).toOption = (expr t s n).toOption) :
    List.Forall₂ (fun y x => y.toOption = x.toOption) (exprs t.uncased s (ns.map Node.uncased))
      (exprs t s ns) := by
  induction ns with
  | nil =>
    simp only [List.map_nil, exprs]
    exact .nil
  | cons n rest ih =>
    obtain ⟨first, later⟩ := List.forall_mem_cons.1 each
    simp only [List.map_cons, exprs]
    exact .cons first (ih later)

theorem choices_uncased {t : SymbolTable} {cs : List (Node × Node)}
    (each : ∀ c ∈ cs, (expr t.uncased s c.1.uncased).toOption = (expr t s c.1).toOption ∧
      (expr t.uncased s c.2.uncased).toOption = (expr t s c.2).toOption) :
    (choices t.uncased s (cs.map fun c => (c.1.uncased, c.2.uncased))).toOption =
      (choices t s cs).toOption := by
  induction cs with
  | nil => simp only [List.map_nil, choices]
  | cons c rest ih =>
    obtain ⟨⟨condition, result⟩, later⟩ := List.forall_mem_cons.1 each
    cases rest with
    | nil => simpa only [List.map_cons, List.map_nil, choices] using result
    | cons next rest =>
      simp only [List.map_cons, choices] at ih ⊢
      rcases toOption_eq_iff.1 (ih later) with
        ⟨no, lowered, lowered'⟩ | ⟨p, q, fails, fails'⟩
      · simp only [lowered, lowered']
        rcases toOption_eq_iff.1 condition with ⟨e, test, test'⟩ | ⟨p, q, fails, fails'⟩
        · simp only [test, test']
          rcases toOption_eq_iff.1 result with ⟨yes, value, value'⟩ | ⟨p, q, fails, fails'⟩
          · simp only [value, value']
          · simp only [fails, fails', Except.toOption]
        · simp only [fails, fails', Except.toOption]
      · simp only [fails, fails', Except.toOption]

theorem expr_uncased (t : SymbolTable) (s : Settings) (n : Node) :
    (expr t.uncased s n.uncased).toOption = (expr t s n).toOption := by
  induction n using Node.induction with
  | int | char | str | ident => simp only [Node.uncased, expr]
  | call members l ih =>
    cases members with
    | nil => rfl
    | cons first args =>
      cases first with
      | int | char | str | call | cond =>
        simp [Node.uncased, Node.uncasedHead, expr, Except.toOption]
      | ident name at_ =>
        have lowered := exprs_uncased fun n hn => ih n (List.mem_cons_of_mem _ hn)
        rw [Node.uncased_call_ident]
        simp only [expr, SymbolTable.lookup_uncased, SymbolTable.lookup_asciiLower]
        cases t.lookup name with
        | none => rfl
        | some d =>
          simp only [Option.map_some, Definition.uncased_isBuiltin, Definition.uncased_name]
          split
          · exact builtinCall_uncased d l args lowered
          · rcases toOption_eq_iff.1 (gather_of_toOption lowered) with
              ⟨es, all, all'⟩ | ⟨p, q, fails, fails'⟩
            · simp only [all, all']
            · simp only [fails, fails', Except.toOption]
  | cond clauses l ih =>
    simp only [Node.uncased, Node.uncasedClauses_eq, expr, isClosed_uncased]
    split
    · exact choices_uncased ih
    · rfl

theorem clauses_uncased (t : SymbolTable) (s : Settings) (cs : List (Node × Node)) :
    (clauses t.uncased s (cs.map fun c => (c.1.uncased, c.2.uncased))).toOption =
      (clauses t s cs).toOption := by
  induction cs with
  | nil => rfl
  | cons c rest ih =>
    simp only [List.map_cons, clauses]
    rcases toOption_eq_iff.1 (expr_uncased t s c.1) with ⟨e, test, test'⟩ | ⟨p, q, fails, fails'⟩
    · simp only [test, test']
      rcases toOption_eq_iff.1 (expr_uncased t s c.2) with
        ⟨r, value, value'⟩ | ⟨p, q, fails, fails'⟩
      · simp only [value, value']
        rcases toOption_eq_iff.1 ih with ⟨es, later, later'⟩ | ⟨p, q, fails, fails'⟩
        · simp only [later, later']
        · simp only [fails, fails', Except.toOption]
      · simp only [fails, fails', Except.toOption]
    · simp only [fails, fails', Except.toOption]

/-- A body that is no conditional is a value. -/
theorem body_of_not_cond {n : Node} (plain : ¬ n.IsCond) (t : SymbolTable) (s : Settings)
    (name : String) : body t s name n = (expr t s n).bind fun e => .ok (.value e) := by
  rw [body.eq_def]
  split
  · next cs l => exact absurd ⟨cs, l, rfl⟩ plain
  · cases expr t s n <;> rfl

theorem body_uncased (t : SymbolTable) (s : Settings) (name : String) (n : Node) :
    (body t.uncased s name n.uncased).toOption = (body t s name n).toOption := by
  by_cases cond : n.IsCond
  · obtain ⟨cs, l, rfl⟩ := cond
    simp only [Node.uncased, Node.uncasedClauses_eq, body, List.any_map, Function.comp_def,
      Node.isCatchAll_uncased]
    rcases toOption_eq_iff.1 (clauses_uncased t s cs) with
      ⟨es, lowered, lowered'⟩ | ⟨p, q, fails, fails'⟩
    · simp only [lowered, lowered']
    · simp only [fails, fails', Except.toOption]
  · have plain : ¬ n.uncased.IsCond := by
      rintro ⟨cs, l, same⟩
      cases n with
      | int | char | str | ident | call => cases same
      | cond cs l => exact cond ⟨cs, l, rfl⟩
    rw [body_of_not_cond cond, body_of_not_cond plain]
    exact toOption_bind_congr (expr_uncased t s n) _

theorem function?_uncased (t : SymbolTable) (s : Settings) (d : Definition) :
    (function? t.uncased s d.uncased).toOption = (function? t s d).toOption := by
  simp only [function?, Definition.uncased_body, Definition.uncased_name, Definition.uncased_loc,
    Definition.uncased_params, Definition.uncased_ret]
  cases d.body with
  | none => rfl
  | some source =>
    simp only [Option.map_some]
    cases checkName s d.name d.loc with
    | error problem => rfl
    | ok _ =>
      cases params s d.loc [] d.params with
      | error problem => rfl
      | ok ps =>
        simp only
        rcases toOption_eq_iff.1 (body_uncased t s d.name source) with
          ⟨b, lowered, lowered'⟩ | ⟨p, q, fails, fails'⟩
        · simp only [lowered, lowered']
        · simp only [fails, fails', Except.toOption]

theorem functionsFrom_uncased (t : SymbolTable) (s : Settings) (taken : Taken)
    (ds : List Definition) :
    (functionsFrom t.uncased s taken (ds.map Definition.uncased)).toOption =
      (functionsFrom t s taken ds).toOption.map (List.map (Prod.map Definition.uncased id)) := by
  induction ds generalizing taken with
  | nil => rfl
  | cons d rest ih =>
    simp only [List.map_cons, functionsFrom, Definition.uncased_name, Definition.uncased_loc]
    cases reserve taken d.name (spell s d.name) d.loc with
    | error problem => rfl
    | ok taken =>
      simp only
      rcases toOption_eq_iff.1 (function?_uncased t s d) with
        ⟨lowered, first, first'⟩ | ⟨p, q, fails, fails'⟩
      · simp only [first, first']
        rcases toOption_eq_map_iff.1 (ih taken) with ⟨fs, later, later'⟩ | ⟨p, q, fails, fails'⟩
        · simp only [later, later']
          cases lowered <;> rfl
        · simp only [fails, fails', Except.toOption, Option.map_none]
      · simp only [fails, fails', Except.toOption, Option.map_none]

theorem functions_uncased (t : SymbolTable) (s : Settings) :
    (functions t.uncased s).toOption =
      (functions t s).toOption.map (List.map (Prod.map Definition.uncased id)) := by
  rw [functions, functions, SymbolTable.functions_uncased]
  exact functionsFrom_uncased t s [] t.functions

end Lowering

/-! ## Units -/

namespace CompiledUnit

variable {forms forms' : List Node}

/-- A unit with the heads of the calls in the bodies of its definitions in lower case. -/
def uncased (u : CompiledUnit) : CompiledUnit :=
  { u with table := u.table.uncased, functions := u.functions.map (Prod.map Definition.uncased id) }

theorem text_uncased (u : CompiledUnit) : u.uncased.text = u.text := by
  simp [text, uncased, Function.comp_def]

theorem ofInferred_uncased (r : Inference.Result) (s : Settings) (file : String) :
    (ofInferred { r with table := r.table.uncased } s file).toOption =
      (ofInferred r s file).toOption.map uncased := by
  simp only [ofInferred]
  rcases toOption_eq_iff.1 (Validation.validate_uncased r.table) with
    ⟨_, valid, valid'⟩ | ⟨p, q, fails, fails'⟩
  · simp only [valid, valid']
    rcases toOption_eq_map_iff.1 (Lowering.functions_uncased r.table s) with
      ⟨fs, lowers, lowers'⟩ | ⟨p, q, fails, fails'⟩
    · simp only [lowers, lowers']
      rfl
    · simp only [fails, fails', Except.toOption, Option.map_none]
  · simp only [fails, fails', Except.toOption, Option.map_none]

/-- Forms without case compile to the same unit, bodies apart. -/
theorem ofForms_uncased (file : String) (forms : List Node) (s : Settings) :
    (ofForms file (forms.map Node.uncasedForm) s).result.toOption =
      (ofForms file forms s).result.toOption.map uncased := by
  simp only [ofForms]
  cases s.flaw? with
  | some flaw => rfl
  | none =>
    rcases toOption_eq_map_iff.1 (SymbolTable.ofForms_uncased forms) with
      ⟨t, build, build'⟩ | ⟨p, q, fails, fails'⟩
    · simp only [build, build', Inference.infer, Inference.run_uncased]
      exact ofInferred_uncased _ s file
    · simp only [fails, fails', Except.toOption, Option.map_none]

/-- The case of function names does not matter. Take two lists of forms that differ only in the case
of letters of ASCII in the keywords of definitions, in the names that they define and in the heads
of the calls in their bodies. Then either both of them compile or neither does, and if they do,
inference takes as many rounds and converges or not alike, all signatures are the same, and so is
the text of the unit. -/
theorem ofForms_of_uncased_eq (same : forms.map Node.uncasedForm = forms'.map Node.uncasedForm)
    (file : String) (s : Settings) :
    ((∃ u, (ofForms file forms s).result = .ok u) ↔
      ∃ u, (ofForms file forms' s).result = .ok u) ∧
    ∀ u u', (ofForms file forms s).result = .ok u → (ofForms file forms' s).result = .ok u' →
      u.rounds = u'.rounds ∧ u.converged = u'.converged ∧
      u.table.signatures = u'.table.signatures ∧
      (∀ name, u.table.signature? name = u'.table.signature? name) ∧ u.text = u'.text := by
  have units := ofForms_uncased file forms s
  rw [same, ofForms_uncased file forms' s] at units
  have exists_ok {x : Except Problem CompiledUnit} :
      (∃ u, x = .ok u) ↔ (x.toOption.map uncased).isSome = true := by
    cases x <;> simp [Except.toOption]
  refine ⟨by rw [exists_ok, exists_ok, units], ?_⟩
  intro u u' compiled compiled'
  rw [compiled, compiled'] at units
  have bodies : u'.uncased = u.uncased := Option.some.inj units
  have tables : u'.table.uncased = u.table.uncased := congrArg table bodies
  have rounds : u'.uncased.rounds = u.uncased.rounds := congrArg CompiledUnit.rounds bodies
  have converged : u'.uncased.converged = u.uncased.converged :=
    congrArg CompiledUnit.converged bodies
  refine ⟨rounds.symm, converged.symm, ?_, ?_, ?_⟩
  · rw [← SymbolTable.signatures_uncased, ← tables, SymbolTable.signatures_uncased]
  · intro name
    rw [← SymbolTable.signature?_uncased, ← tables, SymbolTable.signature?_uncased]
  · rw [← text_uncased, ← bodies, text_uncased]

open Sample

/-- A function that calls itself, a choice and other operators, with or without capitals. -/
def countdown (keyword function self choice : String) : List Node :=
  [form [name keyword, name function, form [name "N"],
    form [name choice, name "N", form [name self, form [name "-", name "N", .int 1 here]],
      .int 0 here]]]

theorem ofForms_of_uncased_eq_countdown :
    (countdown "defun" "down" "down" "if").map Node.uncasedForm =
      (countdown "DEFUN" "Down" "dOwN" "If").map Node.uncasedForm ∧
    ∃ u u', (ofForms "sample" (countdown "defun" "down" "down" "if") {}).result = .ok u ∧
      (ofForms "sample" (countdown "DEFUN" "Down" "dOwN" "If") {}).result = .ok u' ∧
      u'.table.signatures = ["down(N Integer) Integer"] ∧ u.text = u'.text := by
  have same : (countdown "defun" "down" "down" "if").map Node.uncasedForm =
      (countdown "DEFUN" "Down" "dOwN" "If").map Node.uncasedForm := by
    have words : "DEFUN".toLower = "defun".toLower ∧ "Down".toLower = "down".toLower ∧
        "dOwN".toLower = "down".toLower ∧ "If".toLower = "if".toLower := by
      simp only [Text.asciiLower_eq_iff]
      decide +kernel
    simp [countdown, form, name, Node.uncasedForm, Node.uncasedMembers, Node.uncasedParts,
      Node.uncased, Node.uncasedHead, words]
  obtain ⟨u, compiled, signatures⟩ :
      ∃ u, (ofForms "sample" (countdown "defun" "down" "down" "if") {}).result = .ok u ∧
        u.table.signatures = ["down(N Integer) Integer"] :=
    exists_eq_ok (by decide +kernel)
  obtain ⟨succeeds, alike⟩ := ofForms_of_uncased_eq same "sample" {}
  obtain ⟨u', compiled'⟩ := succeeds.1 ⟨u, compiled⟩
  obtain ⟨-, -, listed, -, text⟩ := alike u u' compiled compiled'
  exact ⟨same, u, u', compiled, compiled', listed ▸ signatures, text⟩

end CompiledUnit

end LittleLisp
