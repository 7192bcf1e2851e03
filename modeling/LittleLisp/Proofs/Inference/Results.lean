import LittleLisp.Proofs.Inference.Params

/-!
# Types of results

A tree hands on the values of its results: those of the clauses of a conditional and of the two
branches of a choice, and any other tree is its own result. The type that is derived for a tree is
the join of the types of its results (`derive_le_iff`), each of which is known without looking into
it: a constant has its own type, an identifier that of the parameter, a call that of the callee's
result.

So after a round the result of a function is the join of what its results say (`ret_le_iff`), where
a call says what the callee's result was before the round (`ret_le_of_returns`).
-/

namespace LittleLisp

/-- The type of a parameter, and that of anything else that a name may stand for. -/
def Definition.typeOf (d : Definition) (name : String) : ValueType :=
  (d.paramType? name).getD .any

namespace Node

mutual

/-- The trees whose values a tree hands on. -/
def results (t : SymbolTable) : Node → List Node
  | .cond clauses _ => clauseResults t clauses
  | .call [.ident name at_, condition, yes, no] l =>
    if (t.lookup name).bind (·.operator) = some .choice then yes.results t ++ no.results t
    else [.call [.ident name at_, condition, yes, no] l]
  | n => [n]

/-- The trees whose values clauses hand on. -/
def clauseResults (t : SymbolTable) : List (Node × Node) → List Node
  | [] => []
  | (_, result) :: rest => result.results t ++ clauseResults t rest

end

/-- The type of a tree that is its own result, in the body of `d`. -/
def ownType (t : SymbolTable) (d : Definition) : Node → ValueType
  | .int _ _ => .integer
  | .char _ _ => .char
  | .str _ _ => .string
  | .ident name _ => if isLiteralName name then .any else d.typeOf name
  | n => ((n.callee? t).map (·.ret)).getD .any

/-- Whether a call is a choice is all that the results of a tree depend on. -/
theorem results_congr {t u : SymbolTable}
    (same : ∀ name, (t.lookup name).bind (·.operator) = (u.lookup name).bind (·.operator))
    (n : Node) : n.results t = n.results u := by
  induction n using Node.induction with
  | int | char | str | ident => simp [results]
  | call members l ih =>
    unfold results
    split
    · next shape => cases shape
    · next name at_ condition yes no l shape =>
      obtain ⟨rfl, -⟩ := Node.call.inj shape
      rw [same, ih yes (by simp), ih no (by simp)]
    · rfl
  | cond clauses l ih =>
    simp only [results]
    induction clauses with
    | nil => rfl
    | cons c rest later =>
      obtain ⟨first, each⟩ := List.forall_mem_cons.1 ih
      simp only [clauseResults, first.2, later each]

theorem mem_results_cond {t : SymbolTable} {m : Node} {clauses : List (Node × Node)}
    {l : Location} : m ∈ (cond clauses l).results t ↔ ∃ c ∈ clauses, m ∈ c.2.results t := by
  simp only [results]
  induction clauses with
  | nil => simp [clauseResults]
  | cons c rest ih => simp [clauseResults, ih]

/-- A form is its own result, or it is a choice and hands on the results of its branches. -/
theorem results_call_cases (t : SymbolTable) (members : List Node) (l : Location) :
    (call members l).results t = [call members l] ∨
      ∃ name at_ condition yes no, members = [.ident name at_, condition, yes, no] ∧
        (call members l).results t = yes.results t ++ no.results t := by
  rw [results.eq_def t (call members l)]
  split
  · next shape => cases shape
  · next name at_ condition yes no l shape =>
    obtain ⟨rfl, rfl⟩ := Node.call.inj shape
    split
    · exact .inr ⟨name, at_, condition, yes, no, rfl, rfl⟩
    · exact .inl rfl
  · exact .inl rfl

/-- What holds of a result of a tree, and with the result of a clause holds of the conditional and
with a branch of the choice, holds of the tree. In the first case the result is no conditional and
its own result. -/
theorem mem_results_induction {t : SymbolTable} {m : Node} {motive : Node → Prop}
    (own : (∀ clauses l, m ≠ .cond clauses l) → m.results t = [m] → motive m)
    (clause : ∀ clauses l, ∀ c ∈ clauses, motive c.2 → motive (.cond clauses l))
    (branch : ∀ name at_ condition yes no l, motive yes ∨ motive no →
      motive (.call [.ident name at_, condition, yes, no] l))
    {n : Node} (h : m ∈ n.results t) : motive n := by
  induction n using Node.induction with
  | int | char | str | ident =>
    obtain rfl : m = _ := List.mem_singleton.1 h
    exact own (by simp) rfl
  | call members l ih =>
    rcases results_call_cases t members l with
      single | ⟨name, at_, condition, yes, no, rfl, branches⟩
    · obtain rfl : m = _ := List.mem_singleton.1 (single ▸ h)
      exact own (by simp) single
    · apply branch
      rw [branches] at h
      exact (List.mem_append.1 h).imp (ih yes (by simp)) (ih no (by simp))
  | cond clauses l ih =>
    obtain ⟨c, hc, hm⟩ := mem_results_cond.1 h
    exact clause clauses l c hc ((ih c hc).2 hm)

/-- The results of a tree have no results but themselves. -/
theorem results_of_mem_results {t : SymbolTable} {n m : Node} (h : m ∈ n.results t) :
    m.results t = [m] := by
  refine mem_results_induction (motive := fun _ => m.results t = [m]) ?_ ?_ ?_ h
  · exact fun _ single => single
  · exact fun _ _ _ _ single => single
  · exact fun _ _ _ _ _ _ single => single.elim id id

end Node

namespace Inference

variable {t : SymbolTable}

/-! ## The join of the results -/

theorem derive_choice {d : Definition} {name : String} {at_ l : Location} {condition yes no : Node}
    (choice : (t.lookup name).bind (·.operator) = some .choice) :
    derive t d (.call [.ident name at_, condition, yes, no] l) =
      (derive t d yes).inf (derive t d no) := by
  obtain ⟨e, found, operator⟩ := Option.bind_eq_some_iff.1 choice
  simp [derive, found, operator, deriveAll]

/-- A tree that is its own result has its own type. -/
theorem derive_of_not_choice {d : Definition} {members : List Node} {l : Location}
    (other : ∀ name at_ condition yes no, members = [.ident name at_, condition, yes, no] →
      (t.lookup name).bind (·.operator) ≠ some .choice) :
    derive t d (.call members l) = (Node.call members l).ownType t d := by
  cases members with
  | nil => rfl
  | cons first args =>
    cases first with
    | int | char | str | call | cond => rfl
    | ident name at_ =>
      simp only [derive, Node.ownType, Node.callee?]
      cases found : t.lookup name with
      | none => rfl
      | some e =>
        simp only [Option.map_some, Option.getD_some]
        split
        · next operator =>
          rw [deriveAll_eq]
          split
          · next a b types =>
            -- Three types come from three arguments, and then the call is a choice.
            obtain ⟨condition, rest, rfl, -, h_rest⟩ := List.map_eq_cons_iff.1 types
            obtain ⟨yes, rest, rfl, -, h_rest⟩ := List.map_eq_cons_iff.1 h_rest
            obtain ⟨no, rfl, -⟩ := List.map_eq_singleton_iff.1 h_rest
            exact absurd (by simp [found, operator]) (other name at_ condition yes no rfl)
          · rfl
        · rfl

theorem derive_cond_eq_infAll {d : Definition} (clauses : List (Node × Node)) (l : Location) :
    derive t d (.cond clauses l) = ValueType.infAll (clauses.map fun c => derive t d c.2) := by
  rw [derive]
  induction clauses with
  | nil => rfl
  | cons c rest ih =>
    rw [deriveClauses, ih]
    rfl

/-- The type that is derived for a tree is the narrowest that is as wide as all its results. -/
theorem derive_le_iff {d : Definition} {n : Node} {c : ValueType} :
    derive t d n ≤ c ↔ ∀ m ∈ n.results t, m.ownType t d ≤ c := by
  induction n using Node.induction with
  | int | char | str => simp [Node.results, derive, Node.ownType]
  | ident name l => simp [Node.results, derive, Node.ownType, Definition.typeOf]
  | call members l ih =>
    unfold Node.results
    split
    · next shape => cases shape
    · next name at_ condition yes no l shape =>
      obtain ⟨rfl, rfl⟩ := Node.call.inj shape
      split
      · next choice =>
        rw [derive_choice choice, ValueType.inf_le_iff, ih yes (by simp), ih no (by simp),
          List.forall_mem_append]
      · next other =>
        rw [derive_of_not_choice, List.forall_mem_singleton]
        rintro _ _ _ _ _ ⟨⟩
        exact other
    · next other =>
      rw [derive_of_not_choice, List.forall_mem_singleton]
      rintro name at_ condition yes no rfl
      exact absurd rfl (other name at_ condition yes no l)
  | cond clauses l ih =>
    rw [derive_cond_eq_infAll, ValueType.infAll_le_iff, List.forall_mem_map]
    constructor
    · intro each m hm
      obtain ⟨c, hc, inside⟩ := Node.mem_results_cond.1 hm
      exact (ih c hc).2.1 (each c hc) m inside
    · intro all c hc
      exact (ih c hc).2.2 fun m hm => all m (Node.mem_results_cond.2 ⟨c, hc, hm⟩)

end Inference

/-! ## Functions whose results a function hands on -/

/-- The functions of the program whose results a tree hands on. -/
def Node.resultCalls (t : SymbolTable) (n : Node) : List Definition :=
  ((n.results t).filterMap (callee? t)).filter fun d => !d.isBuiltin

namespace SymbolTable

/-- A function of the program may return what another, or itself, returns. -/
def Returns (t : SymbolTable) (d e : Definition) : Prop :=
  d ∈ t.functions ∧ ∃ body, d.body = some body ∧ e ∈ body.resultCalls t

/-- A function of the program may return what a name stands for in its body. -/
def ReturnsName (t : SymbolTable) (d : Definition) (name : String) : Prop :=
  ∃ body l, d.body = some body ∧ .ident name l ∈ body.results t ∧ isLiteralName name = false

end SymbolTable

namespace Inference

variable {t : SymbolTable}

theorem stage_operator (t : SymbolTable) (n : Nat) (d : Definition) :
    (stage t n d).operator = d.operator := by
  cases n with
  | zero => rfl
  | succ n =>
    rw [stage_succ, refine]
    split <;> rfl

theorem results_iterate (h : t.Sound) (n : Nat) (m : Node) :
    m.results (round^[n] t) = m.results t := by
  apply Node.results_congr
  intro name
  rw [lookup_iterate h]
  cases t.lookup name with
  | none => rfl
  | some d => exact stage_operator t n d

/-- What a tree in the body of `d` that is its own result says in the round after `n` rounds. -/
def resultAt (t : SymbolTable) (n : Nat) (d : Definition) (m : Node) : ValueType :=
  m.ownType (round^[n] t) (stage t (n + 1) d)

/-- After a round, the result of a function is the narrowest type that is as wide as all that its
results say. -/
theorem ret_le_iff (h : t.Sound) (n : Nat) {d : Definition} {body : Node}
    (written : d.body = some body) {c : ValueType} :
    (stage t (n + 1) d).ret ≤ c ↔ ∀ m ∈ body.results t, resultAt t n d m ≤ c := by
  have ret : (stage t (n + 1) d).ret = derive (round^[n] t) (stage t (n + 1) d) body := by
    rw [stage_succ, refine]
    simp only [written]
    apply derive_congr
    · rfl
    · exact fun _ _ => rfl
  rw [ret, derive_le_iff, results_iterate h]
  rfl

theorem resultAt_of_callee (h : t.Sound) (n : Nat) (d : Definition) {e : Definition} {m : Node}
    (found : m.callee? t = some e) : resultAt t n d m = (stage t n e).ret := by
  have shape : m.ownType (round^[n] t) (stage t (n + 1) d) =
      ((m.callee? (round^[n] t)).map (·.ret)).getD .any := by
    cases m with
    | int | char | str | ident => cases found
    | call | cond => rfl
  rw [resultAt, shape, callee?_iterate h, found]
  rfl

theorem typeOf_stage (h : t.Sound) (new : ∀ d ∈ t.functions, d.IsNew) (n : Nat) {d : Definition}
    (hd : d ∈ t.functions) (name : String) :
    (stage t n d).typeOf name = .any ∨ (stage t n d).typeOf name = .integer := by
  rw [Definition.typeOf, Definition.paramType?]
  cases found : (stage t n d).params.find? (·.name == name) with
  | none => exact .inl rfl
  | some p => exact type_of_mem_stage h new n hd (List.mem_of_find?_eq_some found)

/-- What a result says that calls nothing known: a constant has its type, a parameter is an integer,
and everything may be anything. -/
theorem resultAt_of_callee?_eq_none (h : t.Sound) (new : ∀ d ∈ t.functions, d.IsNew) (n : Nat)
    {d : Definition} (hd : d ∈ t.functions) {m : Node} (unknown : m.callee? t = none) :
    resultAt t n d m ∈ [ValueType.any, .integer, .char, .string] := by
  cases m with
  | int | char | str => simp [resultAt, Node.ownType]
  | ident name l =>
    simp only [resultAt, Node.ownType]
    split
    · simp
    · rcases typeOf_stage h new (n + 1) hd name with type | type <;> simp [type]
  | call | cond => simp [resultAt, Node.ownType, callee?_iterate h, unknown]

/-- What a result says changes only with the callee's result or with the parameter's type. -/
theorem resultAt_le (h : t.Sound) {n k : Nat} {d : Definition} {m : Node}
    (callee : ∀ e ∈ t.functions, m.callee? t = some e → (stage t n e).ret ≤ (stage t k e).ret)
    (param : ∀ name l, m = .ident name l → isLiteralName name = false →
      (stage t (n + 1) d).typeOf name ≤ (stage t (k + 1) d).typeOf name) :
    resultAt t n d m ≤ resultAt t k d m := by
  cases found : m.callee? t with
  | some e =>
    rw [resultAt_of_callee h n d found, resultAt_of_callee h k d found]
    rcases callee_cases h found with he | ⟨op, -, rfl⟩
    · exact callee e he found
    · rw [stage_ofBuiltin, stage_ofBuiltin]
  | none =>
    cases m with
    | int | char | str => exact le_refl _
    | ident name l =>
      simp only [resultAt, Node.ownType]
      split
      · exact le_refl _
      · next variable_ => exact param name l rfl (by simpa using variable_)
    | call | cond =>
      simp only [resultAt, Node.ownType, callee?_iterate h, found, Option.map_none, le_refl]

theorem exists_result_of_returns {d e : Definition} (returns : t.Returns d e) {body : Node}
    (written : d.body = some body) : ∃ m ∈ body.results t, m.callee? t = some e := by
  obtain ⟨-, same, written', he⟩ := returns
  obtain rfl : body = same := Option.some.inj (written.symm.trans written')
  obtain ⟨found, -⟩ := List.mem_filter.1 he
  obtain ⟨m, hm, callee⟩ := List.mem_filterMap.1 found
  exact ⟨m, hm, callee⟩

/-- A function's result is at least as wide as the results that it handed on were before. -/
theorem ret_le_of_returns (h : t.Sound) (n : Nat) {d e : Definition} (returns : t.Returns d e) :
    (stage t n e).ret ≤ (stage t (n + 1) d).ret := by
  obtain ⟨body, written, -⟩ := returns.2
  obtain ⟨m, hm, callee⟩ := exists_result_of_returns returns written
  have all := (ret_le_iff h n written).1 (le_refl _)
  rw [← resultAt_of_callee h n d callee]
  exact all m hm

theorem returns_of_mem (h : t.Sound) {d e : Definition} (hd : d ∈ t.functions) {body : Node}
    (written : d.body = some body) {m : Node} (hm : m ∈ body.results t)
    (callee : m.callee? t = some e) (he : e ∈ t.functions) : t.Returns d e := by
  refine ⟨hd, body, written, List.mem_filter.2 ⟨List.mem_filterMap.2 ⟨m, hm, callee⟩, ?_⟩⟩
  simp [(h.isFunction he).not_builtin]

/-- A function's result does not get narrower in a round in which none of the results that it hands
on has got narrower, and no parameter that it returns does. -/
theorem ret_le_ret (h : t.Sound) {n k : Nat} {d : Definition} (hd : d ∈ t.functions)
    (callees : ∀ e, t.Returns d e → (stage t n e).ret ≤ (stage t k e).ret)
    (params : ∀ name, t.ReturnsName d name →
      (stage t (n + 1) d).typeOf name ≤ (stage t (k + 1) d).typeOf name) :
    (stage t (n + 1) d).ret ≤ (stage t (k + 1) d).ret := by
  obtain ⟨body, written⟩ := Option.isSome_iff_exists.1 (h.isFunction hd).body
  have all := (ret_le_iff h k written).1 (le_refl _)
  apply (ret_le_iff h n written).2
  intro m hm
  refine le_trans (resultAt_le h ?_ ?_) (all m hm)
  · exact fun e he callee => callees e (returns_of_mem h hd written hm callee he)
  · rintro name l rfl not_literal
    exact params name ⟨body, l, written, hm, not_literal⟩

end Inference

end LittleLisp
