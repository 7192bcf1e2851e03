import LittleLisp.Proofs.Lowering.Unit
import LittleLisp.Proofs.SymbolTable.Listing
import LittleLisp.Proofs.Unit.Faults

/-!
# Why a valid table is not lowered

Validation leaves lowering two things to refuse: names, which C or the runtime may claim or which may
meet in C, and conditionals that are used as values and may run out of clauses. `Refused` lists these
reasons with the problem that each of them makes.

Lowering drops one branch of a choice on an integer constant and looks at everything else, so a
conditional counts where it is kept (`Kept`). If a body is lowered, everything kept in it is lowered;
if it is not, the problem is that of a conditional that is kept. Together with names this says when
lowering fails (`functions_eq_error_iff`).
-/

namespace LittleLisp.Lowering

/-! ## What lowering keeps of a body -/

/-- An argument of a call is the branch that is not taken of a choice on an integer constant. -/
def Drops (first : Node) (args : List Node) (i : Nat) : Prop :=
  ∃ name at_ value k rest, first = .ident name at_ ∧ Text.toLower name = Builtin.choice.name ∧
    args = .int value k :: rest ∧ i = if value = 0 then 1 else 2

/-- A node of a body is evaluated, and it is not in a branch that is dropped. -/
inductive Kept (body : Node) : Node → Prop where
  | body : Kept body body
  | argument {first n : Node} {args : List Node} {l : Location} {i : Nat}
    (call : Kept body (.call (first :: args) l)) (arg : args[i]? = some n)
    (taken : ¬ Drops first args i) : Kept body n
  | condition {c : Node × Node} {clauses : List (Node × Node)} {l : Location}
    (cond : Kept body (.cond clauses l)) (hc : c ∈ clauses) : Kept body c.1
  | result {c : Node × Node} {clauses : List (Node × Node)} {l : Location}
    (cond : Kept body (.cond clauses l)) (hc : c ∈ clauses) : Kept body c.2

/-- Clauses may run out: there are none, or the condition of the last one is not `T`. -/
def RunsOut (clauses : List (Node × Node)) : Prop :=
  ∀ c ∈ clauses.getLast?, ∀ l, c.1 ≠ .ident trueWord l

variable {t : SymbolTable} {s : Settings} {d : Definition}

theorem Kept.trans {a b c : Node} (first : Kept a b) (later : Kept b c) : Kept a c := by
  induction later with
  | body => exact first
  | argument _ arg taken ih => exact .argument ih arg taken
  | condition _ hc ih => exact .condition ih hc
  | result _ hc ih => exact .result ih hc

theorem sizeOf_clause_lt {c : Node × Node} {clauses : List (Node × Node)} (hc : c ∈ clauses) :
    sizeOf c.1 + sizeOf c.2 < sizeOf clauses := by
  have inside := List.sizeOf_lt_of_mem hc
  obtain ⟨condition, result⟩ := c
  simp at inside ⊢
  omega

theorem Kept.sizeOf_le {n m : Node} (h : Kept n m) : sizeOf m ≤ sizeOf n := by
  induction h with
  | body => exact Nat.le_refl _
  | argument _ arg _ ih =>
    have inside := List.sizeOf_lt_of_mem (List.mem_of_getElem? arg)
    simp at ih
    omega
  | condition _ hc ih =>
    have inside := sizeOf_clause_lt hc
    simp at ih
    omega
  | result _ hc ih =>
    have inside := sizeOf_clause_lt hc
    simp at ih
    omega

/-- What is kept in a part of a clause is not the whole conditional. -/
theorem Kept.ne_of_clause {n m : Node} {c : Node × Node} {clauses : List (Node × Node)}
    {l : Location} (h : Kept n m) (hc : c ∈ clauses) (part : n = c.1 ∨ n = c.2) :
    m ≠ .cond clauses l := by
  rintro rfl
  have inside := sizeOf_clause_lt hc
  have bound := h.sizeOf_le
  simp at bound
  rcases part with rfl | rfl <;> omega

theorem isCatchAll_iff {n : Node} : n.isCatchAll = true ↔ ∃ l, n = .ident trueWord l := by
  cases n with
  | ident name l => simp [Node.isCatchAll]
  | int | char | str | call | cond => simp [Node.isCatchAll]

theorem isClosed_eq_false_iff {clauses : List (Node × Node)} :
    isClosed clauses = false ↔ RunsOut clauses := by
  induction clauses with
  | nil => simp [isClosed, RunsOut]
  | cons c rest ih =>
    cases rest with
    | nil =>
      have test : RunsOut [c] ↔ ¬ ∃ l, c.1 = .ident trueWord l := by simp [RunsOut]
      rw [test, ← isCatchAll_iff, Bool.not_eq_true]
      rfl
    | cons next rest =>
      have same : RunsOut (c :: next :: rest) ↔ RunsOut (next :: rest) := by
        simp only [RunsOut, List.getLast?_cons_cons]
      rw [same, ← ih]
      rfl

/-! ## What is kept of a lowered body is lowered -/

theorem exists_lowers_of_forall₂ {args : List Node} {es : List C.Expr}
    (lowered : List.Forall₂ (Lowers t s) args es) {n : Node} (hn : n ∈ args) :
    ∃ e, Lowers t s n e := by
  induction lowered with
  | nil => cases hn
  | cons first _ ih =>
    rcases List.mem_cons.1 hn with rfl | hn
    · exact ⟨_, first⟩
    · exact ih hn

theorem toLower_of_lookup_choice {name : String}
    (found : t.lookup name = some (Definition.ofBuiltin .choice)) :
    Text.toLower name = Builtin.choice.name := by
  obtain ⟨-, -, -, named⟩ := SymbolTable.lookup_eq_some found
  exact named.symm

/-- The arguments of a lowered call are lowered, but for one that is dropped. -/
theorem Lowers.argument {first n : Node} {args : List Node} {l : Location} {e : C.Expr} {i : Nat}
    (h : Lowers t s (.call (first :: args) l) e) (arg : args[i]? = some n)
    (taken : ¬ Drops first args i) : ∃ e, Lowers t s n e := by
  have member := List.mem_of_getElem? arg
  cases h with
  | @taken name value yes no at_ k _ _ found nonzero lowered =>
    -- Only the branch that is taken is lowered, and the other one is dropped.
    have dropped : i ≠ 2 := by
      rintro rfl
      exact taken ⟨name, at_, value, k, _, rfl, toLower_of_lookup_choice found, rfl, by simp [nonzero]⟩
    match i, arg with
    | 0, arg =>
      obtain rfl := Option.some.inj arg
      exact ⟨_, .int value k⟩
    | 1, arg =>
      obtain rfl := Option.some.inj arg
      exact ⟨_, lowered⟩
    | 2, _ => exact absurd rfl dropped
  | @skipped name yes no at_ k _ _ found lowered =>
    have dropped : i ≠ 1 := by
      rintro rfl
      exact taken ⟨name, at_, 0, k, _, rfl, toLower_of_lookup_choice found, rfl, rfl⟩
    match i, arg with
    | 0, arg =>
      obtain rfl := Option.some.inj arg
      exact ⟨_, .int 0 k⟩
    | 1, _ => exact absurd rfl dropped
    | 2, arg =>
      obtain rfl := Option.some.inj arg
      exact ⟨_, lowered⟩
  | choice _ _ test yes no =>
    exact exists_lowers_of_forall₂ (.cons test (.cons yes (.cons no .nil))) member
  | binary _ left right => exact exists_lowers_of_forall₂ (.cons left (.cons right .nil)) member
  | list _ _ lowered => exact exists_lowers_of_forall₂ lowered member
  | call _ _ lowered => exact exists_lowers_of_forall₂ lowered member

/-- The parts of clauses that become choices are lowered, or are the `T` at the end, which could
be. -/
theorem LowersChoices.clause {clauses : List (Node × Node)} {e : C.Expr}
    (h : LowersChoices (Lowers t s) clauses e) (closed : isClosed clauses = true)
    {c : Node × Node} (hc : c ∈ clauses) :
    (∃ e, Lowers t s c.1 e) ∧ ∃ e, Lowers t s c.2 e := by
  induction h with
  | @last condition result e value =>
    obtain rfl := List.mem_singleton.1 hc
    obtain ⟨l, rfl⟩ := isCatchAll_iff.1 closed
    exact ⟨⟨_, .ident trueWord l⟩, _, value⟩
  | more test value later ih =>
    rcases List.mem_cons.1 hc with rfl | hc
    · exact ⟨⟨_, test⟩, _, value⟩
    · exact ih closed hc

theorem Lowers.clause {clauses : List (Node × Node)} {l : Location} {e : C.Expr}
    (h : Lowers t s (.cond clauses l) e) {c : Node × Node} (hc : c ∈ clauses) :
    (∃ e, Lowers t s c.1 e) ∧ ∃ e, Lowers t s c.2 e := by
  cases h with
  | cond closed lowered => exact lowered.clause closed hc

theorem exists_lowers_of_lowersClause {clauses : List (Node × Node)}
    {lowered : List (C.Expr × C.Expr)} (h : List.Forall₂ (LowersClause t s) clauses lowered)
    {c : Node × Node} (hc : c ∈ clauses) :
    (∃ e, Lowers t s c.1 e) ∧ ∃ e, Lowers t s c.2 e := by
  induction h with
  | nil => cases hc
  | cons first _ ih =>
    rcases List.mem_cons.1 hc with rfl | hc
    · exact ⟨⟨_, first.1⟩, _, first.2⟩
    · exact ih hc

/-- Everything that is kept of a lowered body is lowered, the body itself apart. -/
theorem LowersBody.kept {name : String} {body m : Node} {b : C.Body}
    (h : LowersBody t s name body b) (kept : Kept body m) : m = body ∨ ∃ e, Lowers t s m e := by
  induction kept with
  | body => exact .inl rfl
  | argument _ arg taken ih =>
    rcases ih with rfl | ⟨e, lowered⟩
    · cases h with
      | value _ lowered => exact .inr (lowered.argument arg taken)
    · exact .inr (lowered.argument arg taken)
  | condition _ hc ih =>
    rcases ih with rfl | ⟨e, lowered⟩
    · cases h with
      | value other => exact absurd rfl (other _ _)
      | cascade lowered => exact .inr (exists_lowers_of_lowersClause lowered hc).1
    · exact .inr (lowered.clause hc).1
  | result _ hc ih =>
    rcases ih with rfl | ⟨e, lowered⟩
    · cases h with
      | value other => exact absurd rfl (other _ _)
      | cascade lowered => exact .inr (exists_lowers_of_lowersClause lowered hc).2
    · exact .inr (lowered.clause hc).2

/-! ## The problem of a name -/

theorem checkName_of_allowed {source : String} (h : Allowed s (spell s source))
    (l : Option Location) : checkName s source l = .ok () := by
  obtain ⟨not_keyword, not_runtime, not_type⟩ := h
  simp only [List.mem_cons, List.not_mem_nil, or_false, not_or] at not_type
  obtain ⟨string, list, any⟩ := not_type
  simp [checkName, not_keyword, not_runtime, string, list, any]

theorem fault_of_checkName {source : String} {l : Option Location} {problem : Problem}
    (h : checkName s source l = .error problem) :
    problem.fault = .keywordName source (spell s source) ∨
      problem.fault = .runtimeName source (spell s source) := by
  simp only [checkName] at h
  split at h
  · exact .inl (Except.error.inj h ▸ rfl)
  · split at h
    · exact .inr (Except.error.inj h ▸ rfl)
    · cases h

/-- C names are taken as the spellings of some source names. -/
def Taken.Within (s : Settings) (names : List String) (taken : Taken) : Prop :=
  ∀ p ∈ taken, p.1 = spell s p.2 ∧ p.2 ∈ names

theorem Taken.within_nil (s : Settings) (names : List String) : Taken.Within s names [] :=
  fun _ member => absurd member List.not_mem_nil

/-- A C name can be taken, or another source name has the same spelling. -/
theorem reserve_cases {names : List String} {taken : Taken} (within : taken.Within s names)
    {source : String} (known : source ∈ names) (l : Option Location) :
    (∃ more, reserve taken source (spell s source) l = .ok more ∧ more.Within s names) ∨
    ∃ holder ∈ names, holder ≠ source ∧ spell s holder = spell s source ∧
      reserve taken source (spell s source) l =
        .error ⟨.takenName source (spell s source) holder, l⟩ := by
  unfold reserve
  split
  · next holder held =>
    split
    · exact .inl ⟨taken, rfl, within⟩
    · next other =>
      obtain ⟨before, after, rfl, -⟩ := List.lookup_eq_some_iff.1 held
      obtain ⟨spelled, member⟩ := within (spell s source, holder) (by simp)
      exact .inr ⟨holder, member, other, spelled.symm, rfl⟩
  · exact .inl ⟨_, rfl, List.forall_mem_cons.2 ⟨⟨rfl, known⟩, within⟩⟩

/-- The problem of parameters is that of a name, or of two names that meet. -/
theorem name_of_params {names : List String} {taken : Taken} (within : taken.Within s names)
    {l : Option Location} {ps : List Param} (known : ∀ p ∈ ps, p.name ∈ names) {problem : Problem}
    (h : params s l taken ps = .error problem) :
    (∃ p ∈ ps, checkName s p.name l = .error problem) ∨
    ∃ p ∈ ps, ∃ holder ∈ names, holder ≠ p.name ∧ spell s holder = spell s p.name ∧
      problem = ⟨.takenName p.name (spell s p.name) holder, l⟩ := by
  induction ps generalizing taken with
  | nil => cases h
  | cons p rest ih =>
    obtain ⟨first, later⟩ := List.forall_mem_cons.1 known
    simp only [params] at h
    split at h
    · next failed => exact .inl ⟨p, by simp, Except.error.inj h ▸ failed⟩
    · rcases reserve_cases within first l with
        ⟨more, reserved, within⟩ | ⟨holder, member, other, same, failed⟩
      · simp only [reserved] at h
        split at h
        · next failed =>
          obtain rfl := Except.error.inj h
          rcases ih within later failed with ⟨q, hq, failed⟩ | ⟨q, hq, meets⟩
          · exact .inl ⟨q, List.mem_cons_of_mem _ hq, failed⟩
          · exact .inr ⟨q, List.mem_cons_of_mem _ hq, meets⟩
        · cases h
      · simp only [failed] at h
        exact .inr ⟨p, by simp, holder, member, other, same, (Except.error.inj h).symm⟩

/-! ## Reasons -/

/-- The reasons for which a valid table is not lowered, each with its problem. -/
inductive Refused (t : SymbolTable) (s : Settings) : Problem → Prop where
  | functionName {d : Definition} {problem : Problem} (hd : d ∈ t.functions)
    (claimed : checkName s d.name d.loc = .error problem) : Refused t s problem
  | paramName {d : Definition} {p : Param} {problem : Problem} (hd : d ∈ t.functions)
    (hp : p ∈ d.params) (claimed : checkName s p.name d.loc = .error problem) : Refused t s problem
  | functionsMeet {d e : Definition} (hd : d ∈ t.functions) (he : e ∈ t.functions)
    (differ : d.name ≠ e.name) (same : spell s d.name = spell s e.name) :
    Refused t s ⟨.takenName e.name (spell s e.name) d.name, e.loc⟩
  | paramsMeet {d : Definition} {p q : Param} (hd : d ∈ t.functions) (hp : p ∈ d.params)
    (hq : q ∈ d.params) (differ : p.name ≠ q.name) (same : spell s p.name = spell s q.name) :
    Refused t s ⟨.takenName q.name (spell s q.name) p.name, d.loc⟩
  | openCond {d : Definition} {body : Node} {clauses : List (Node × Node)} {l : Location}
    (hd : d ∈ t.functions) (written : d.body = some body) (kept : Kept body (.cond clauses l))
    (value : .cond clauses l ≠ body) (runsOut : RunsOut clauses) :
    Refused t s (Fault.openCond.at l)

theorem Refused.fault_cases {problem : Problem} (h : Refused t s problem) :
    (∃ source, problem.fault = .keywordName source (spell s source)) ∨
    (∃ source, problem.fault = .runtimeName source (spell s source)) ∨
    (∃ source holder, problem.fault = .takenName source (spell s source) holder) ∨
    problem.fault = .openCond := by
  cases h with
  | functionName _ claimed =>
    rcases fault_of_checkName claimed with fault | fault
    · exact .inl ⟨_, fault⟩
    · exact .inr (.inl ⟨_, fault⟩)
  | paramName _ _ claimed =>
    rcases fault_of_checkName claimed with fault | fault
    · exact .inl ⟨_, fault⟩
    · exact .inr (.inl ⟨_, fault⟩)
  | functionsMeet => exact .inr (.inr (.inl ⟨_, _, rfl⟩))
  | paramsMeet => exact .inr (.inr (.inl ⟨_, _, rfl⟩))
  | openCond => exact .inr (.inr (.inr rfl))

/-! ## The problem of an expression -/

theorem length_of_gather {α : Type} {rs : List (Except Problem α)} {as : List α}
    (h : gather rs = .ok as) : as.length = rs.length := by
  induction rs generalizing as with
  | nil =>
    obtain rfl := Except.ok.inj h
    rfl
  | cons r rest ih =>
    cases r with
    | error problem => cases h
    | ok a =>
      simp only [gather] at h
      split at h
      · next later gathered =>
        obtain rfl := Except.ok.inj h
        rw [List.length_cons, List.length_cons, ih gathered]
      · cases h

/-- An operator of the library has a C form for as many arguments as it takes. -/
theorem exists_operatorCall {op : Builtin} (listed : op ∈ Builtin.library) (l : Location)
    {es : List C.Expr} (arity : es.length = op.paramTypes.length) :
    ∃ e, operatorCall (Definition.ofBuiltin op) l es = .ok e := by
  cases op with
  | choice =>
    obtain ⟨c, y, n, rfl⟩ := List.length_eq_three.1 arity
    exact ⟨_, rfl⟩
  | binary op =>
    obtain ⟨a, b, rfl⟩ := List.length_eq_two.1 arity
    exact ⟨_, rfl⟩
  | list op => exact ⟨_, rfl⟩
  | foreign code => simp [Builtin.library] at listed

/-- A problem of gathered arguments is that of one of them. -/
theorem exists_argument_of_gather {args : List Node} {problem : Problem}
    (h : gather (exprs t s args) = .error problem) :
    ∃ (i : Nat) (n : Node), args[i]? = some n ∧ expr t s n = .error problem := by
  have failed := mem_of_gather_eq_error h
  rw [exprs_eq] at failed
  obtain ⟨n, hn, failed⟩ := List.mem_map.1 failed
  obtain ⟨i, arg⟩ := List.mem_iff_getElem?.1 hn
  exact ⟨i, n, arg, failed⟩

/-- Where no choice is made on a constant, all arguments are lowered and none is dropped: the problem
is that of an argument. -/
theorem exists_argument_of_operatorCall {head : Node} {op : Builtin} {args : List Node}
    {problem : Problem} (l : Location) (listed : op ∈ Builtin.library)
    (arity : args.length = op.paramTypes.length) (plain : ∀ i, ¬ Drops head args i)
    (h : (match gather (exprs t s args) with
      | .ok es => operatorCall (Definition.ofBuiltin op) l es
      | .error problem => .error problem) = .error problem) :
    ∃ (i : Nat) (n : Node), args[i]? = some n ∧ ¬ Drops head args i ∧
      expr t s n = .error problem := by
  split at h
  · next es read =>
    have length : es.length = op.paramTypes.length := by
      rw [length_of_gather read, exprs_eq, List.length_map, arity]
    obtain ⟨e, made⟩ := exists_operatorCall listed l length
    rw [made] at h
    cases h
  · next failed =>
    obtain rfl := Except.error.inj h
    obtain ⟨i, n, arg, failed⟩ := exists_argument_of_gather failed
    exact ⟨i, n, arg, plain i, failed⟩

/-- A problem of a call of a library operator is that of an argument that is not dropped. -/
theorem exists_argument_of_builtinCall {name : String} (at_ l : Location) {op : Builtin}
    {args : List Node} {problem : Problem} (listed : op ∈ Builtin.library)
    (named : op.name = Text.toLower name) (arity : args.length = op.paramTypes.length)
    (h : builtinCall (Definition.ofBuiltin op) l args (exprs t s args) = .error problem) :
    ∃ (i : Nat) (n : Node), args[i]? = some n ∧ ¬ Drops (.ident name at_) args i ∧
      expr t s n = .error problem := by
  have arity' : ¬ args.length ≠ (Definition.ofBuiltin op).params.length := by simp [arity]
  unfold builtinCall at h
  rw [if_neg arity'] at h
  cases op with
  | choice =>
    obtain ⟨condition, yes, no, rfl⟩ := List.length_eq_three.1 arity
    cases constant : leadingInt? [condition, yes, no] with
    | some value =>
      obtain ⟨k, rfl⟩ := leadingInt?_eq_some constant
      have dropped {i : Nat} (drops : Drops (.ident name at_) [.int value k, yes, no] i) :
          i = if value = 0 then 1 else 2 := by
        obtain ⟨_, _, _, _, _, -, -, shape, place⟩ := drops
        cases shape
        exact place
      simp only [constant, exprs, Definition.operator_ofBuiltin, List.headD] at h
      split at h
      · next nonzero => exact ⟨1, yes, rfl, fun drops => by simpa [nonzero] using dropped drops, h⟩
      · next zero =>
        obtain rfl : value = 0 := by omega
        exact ⟨2, no, rfl, fun drops => by simpa using dropped drops, h⟩
    | none =>
      simp only [constant] at h
      refine exists_argument_of_operatorCall l listed arity ?_ h
      rintro i ⟨_, _, _, _, _, -, -, shape, -⟩
      rw [shape] at constant
      cases constant
  | binary op =>
    refine exists_argument_of_operatorCall l listed arity ?_ h
    rintro i ⟨_, _, _, _, _, head, choice, -, -⟩
    obtain ⟨rfl, rfl⟩ := Node.ident.inj head
    rw [choice] at named
    exact absurd named (by cases op <;> decide)
  | list op =>
    refine exists_argument_of_operatorCall l listed arity ?_ h
    rintro i ⟨_, _, _, _, _, head, choice, -, -⟩
    obtain ⟨rfl, rfl⟩ := Node.ident.inj head
    rw [choice] at named
    exact absurd named (by cases op <;> decide)
  | foreign code => simp [Builtin.library] at listed

theorem exists_clause_of_choices {clauses : List (Node × Node)} {problem : Problem}
    (closed : isClosed clauses = true) (h : choices t s clauses = .error problem) :
    ∃ c ∈ clauses, expr t s c.1 = .error problem ∨ expr t s c.2 = .error problem := by
  induction clauses with
  | nil => cases closed
  | cons c rest ih =>
    cases rest with
    | nil =>
      simp only [choices] at h
      exact ⟨c, by simp, .inr h⟩
    | cons next rest =>
      simp only [choices] at h
      split at h
      · next failed =>
        obtain rfl := Except.error.inj h
        obtain ⟨c', hc, failed⟩ := ih closed failed
        exact ⟨c', List.mem_cons_of_mem _ hc, failed⟩
      · split at h
        · next failed => exact ⟨c, by simp, .inl (Except.error.inj h ▸ failed)⟩
        · split at h
          · next failed => exact ⟨c, by simp, .inr (Except.error.inj h ▸ failed)⟩
          · cases h

theorem exists_clause_of_clauses {cs : List (Node × Node)} {problem : Problem}
    (h : clauses t s cs = .error problem) :
    ∃ c ∈ cs, expr t s c.1 = .error problem ∨ expr t s c.2 = .error problem := by
  induction cs with
  | nil => cases h
  | cons c rest ih =>
    simp only [clauses] at h
    split at h
    · next failed => exact ⟨c, by simp, .inl (Except.error.inj h ▸ failed)⟩
    · split at h
      · next failed => exact ⟨c, by simp, .inr (Except.error.inj h ▸ failed)⟩
      · split at h
        · next failed =>
          obtain rfl := Except.error.inj h
          obtain ⟨c', hc, failed⟩ := ih failed
          exact ⟨c', List.mem_cons_of_mem _ hc, failed⟩
        · cases h

/-! ## Valid tables -/

section Valid

open Validation (Scoped)

variable (sound : t.Sound)
  (operators : ∀ op ∈ Builtin.library, t.get? op.name = some (Definition.ofBuiltin op))

include sound operators

/-- The problem of an expression in scope is that of a conditional that is kept in it. -/
theorem exists_runsOut_of_expr {n : Node} {problem : Problem} (checked : Scoped t d n)
    (h : expr t s n = .error problem) :
    ∃ clauses l, Kept n (.cond clauses l) ∧ RunsOut clauses ∧ problem = Fault.openCond.at l := by
  induction n using Node.induction with
  | int | char | str | ident =>
    simp only [expr] at h
    cases h
  | cond clauses l ih =>
    simp only [expr] at h
    cases checked with
    | cond conditions results =>
      split at h
      · next closed =>
        obtain ⟨c, hc, failed | failed⟩ := exists_clause_of_choices closed h
        · obtain ⟨cs, k, kept, open_, rfl⟩ := (ih c hc).1 (conditions c hc) failed
          exact ⟨cs, k, .trans (.condition .body hc) kept, open_, rfl⟩
        · obtain ⟨cs, k, kept, open_, rfl⟩ := (ih c hc).2 (results c hc) failed
          exact ⟨cs, k, .trans (.result .body hc) kept, open_, rfl⟩
      · next closed =>
        exact ⟨clauses, l, .body, isClosed_eq_false_iff.1 (by simpa using closed),
          (Except.error.inj h).symm⟩
  | call members l ih =>
    cases checked with
    | @call name g args at_ _ found arity checked =>
      obtain ⟨i, n, arg, taken, failed⟩ : ∃ i n, args[i]? = some n ∧
          ¬ Drops (.ident name at_) args i ∧ expr t s n = .error problem := by
        simp only [expr, found] at h
        split at h
        · next builtin =>
          obtain ⟨op, listed, rfl⟩ := sound.operator_of_lookup found builtin
          obtain ⟨-, -, -, named⟩ := SymbolTable.lookup_eq_some found
          exact exists_argument_of_builtinCall at_ l listed named (by simpa using arity) h
        · next function =>
          split at h
          · cases h
          · next failed =>
            obtain rfl := Except.error.inj h
            obtain ⟨i, n, arg, failed⟩ := exists_argument_of_gather failed
            refine ⟨i, n, arg, ?_, failed⟩
            rintro ⟨_, _, _, _, _, head, choice, -, -⟩
            obtain ⟨rfl, rfl⟩ := Node.ident.inj head
            -- The name of the choice stands for the choice, which is not a function.
            rw [SymbolTable.lookup, choice, operators .choice (by decide)] at found
            obtain rfl := Option.some.inj found
            exact function rfl
      have hn := List.mem_of_getElem? arg
      obtain ⟨cs, k, kept, open_, rfl⟩ := ih n (List.mem_cons_of_mem _ hn) (checked n hn) failed
      exact ⟨cs, k, .trans (.argument .body arg taken) kept, open_, rfl⟩

/-- The problem of a body in scope is that of a conditional that is kept in it and is not the whole
body. -/
theorem exists_runsOut_of_body {name : String} {n : Node} {problem : Problem}
    (checked : Scoped t d n) (h : body t s name n = .error problem) :
    ∃ clauses l, Kept n (.cond clauses l) ∧ .cond clauses l ≠ n ∧ RunsOut clauses ∧
      problem = Fault.openCond.at l := by
  unfold body at h
  split at h
  · next cs l =>
    split at h
    · next failed =>
      obtain rfl := Except.error.inj h
      cases checked with
      | cond conditions results =>
        obtain ⟨c, hc, failed | failed⟩ := exists_clause_of_clauses failed
        · obtain ⟨ds, k, kept, open_, rfl⟩ :=
            exists_runsOut_of_expr sound operators (conditions c hc) failed
          exact ⟨ds, k, .trans (.condition .body hc) kept, kept.ne_of_clause hc (.inl rfl), open_, rfl⟩
        · obtain ⟨ds, k, kept, open_, rfl⟩ :=
            exists_runsOut_of_expr sound operators (results c hc) failed
          exact ⟨ds, k, .trans (.result .body hc) kept, kept.ne_of_clause hc (.inr rfl), open_, rfl⟩
    · cases h
  · next other =>
    split at h
    · cases h
    · next failed =>
      obtain rfl := Except.error.inj h
      obtain ⟨cs, l, kept, open_, rfl⟩ := exists_runsOut_of_expr sound operators checked failed
      exact ⟨cs, l, kept, fun same => other cs l same.symm, open_, rfl⟩

/-- A function of a valid table fails for one of the reasons. -/
theorem refused_of_function? (hd : d ∈ t.functions)
    (checked : ∀ body, d.body = some body → Scoped t d body)
    {problem : Problem} (h : function? t s d = .error problem) : Refused t s problem := by
  unfold function? at h
  split at h
  · cases h
  · next source written =>
    split at h
    · next failed =>
      obtain rfl := Except.error.inj h
      exact .functionName hd failed
    · split at h
      · next failed =>
        obtain rfl := Except.error.inj h
        rcases name_of_params (Taken.within_nil s _) (fun p hp => List.mem_map_of_mem hp) failed with
          ⟨p, hp, claimed⟩ | ⟨p, hp, holder, member, differ, same, rfl⟩
        · exact .paramName hd hp claimed
        · obtain ⟨q, hq, rfl⟩ := List.mem_map.1 member
          exact .paramsMeet hd hq hp differ same
      · split at h
        · next failed =>
          obtain rfl := Except.error.inj h
          obtain ⟨clauses, l, kept, value, runsOut, rfl⟩ :=
            exists_runsOut_of_body sound operators (checked source written) failed
          exact .openCond hd written kept value runsOut
        · cases h

theorem refused_of_functionsFrom
    (checked : ∀ d ∈ t.functions, ∀ body, d.body = some body → Scoped t d body) {taken : Taken}
    (within : taken.Within s (t.functions.map (·.name))) {ds : List Definition}
    (part : ∀ d ∈ ds, d ∈ t.functions) {problem : Problem}
    (h : functionsFrom t s taken ds = .error problem) : Refused t s problem := by
  induction ds generalizing taken with
  | nil => cases h
  | cons d rest ih =>
    obtain ⟨hd, later⟩ := List.forall_mem_cons.1 part
    simp only [functionsFrom] at h
    rcases reserve_cases within (List.mem_map_of_mem hd) d.loc with
      ⟨more, reserved, within⟩ | ⟨holder, member, differ, same, failed⟩
    · simp only [reserved] at h
      split at h
      · next failed =>
        obtain rfl := Except.error.inj h
        exact refused_of_function? sound operators hd (checked d hd) failed
      · split at h
        · next failed =>
          obtain rfl := Except.error.inj h
          exact ih within later failed
        · split at h <;> cases h
    · simp only [failed] at h
      obtain rfl := Except.error.inj h
      -- What is taken so far is taken by functions, so the holder is one of them.
      obtain ⟨e, he, rfl⟩ := List.mem_map.1 member
      exact .functionsMeet he hd differ same

end Valid

/-- Names that meet in C are not distinct there. -/
theorem not_nodup_of_meets {names : List String} {f : String → String} {a b : String}
    (ha : a ∈ names) (hb : b ∈ names) (differ : a ≠ b) (same : f a = f b) : ¬ (names.map f).Nodup :=
  fun nodup => differ (List.inj_on_of_nodup_map nodup ha hb same)

/-- A table with one of the reasons is not lowered. -/
theorem Refused.not_lowered (sound : t.Sound) {problem : Problem} (h : Refused t s problem)
    {lowered : List (Definition × C.Function)} (ok : functions t s = .ok lowered) : False := by
  obtain ⟨definitions, each, reserves⟩ :=
    functionsFrom_eq_ok sound (fun d hd => sound.isFunction hd) ok
  have made (d : Definition) (hd : d ∈ t.functions) : ∃ f, LowersFunction t s d f := by
    rw [← definitions] at hd
    obtain ⟨p, hp, rfl⟩ := List.mem_map.1 hd
    exact ⟨p.2, each p hp⟩
  cases h with
  | @functionName d _ hd claimed =>
    obtain ⟨f, lowers⟩ := made d hd
    have allowed := lowers.name_allowed
    rw [lowers.name_eq] at allowed
    rw [checkName_of_allowed allowed] at claimed
    cases claimed
  | @paramName d p _ hd hp claimed =>
    obtain ⟨f, lowers⟩ := made d hd
    have allowed := lowers.params_allowed (paramOf s p) (by
      rw [lowers.params_eq]
      exact List.mem_map_of_mem hp)
    rw [checkName_of_allowed allowed] at claimed
    cases claimed
  | @functionsMeet d e hd he differ same =>
    have distinct := (reserves.distinct sound.nodup_functions (by simp)).1
    exact not_nodup_of_meets (List.mem_map_of_mem hd) (List.mem_map_of_mem he) differ same distinct
  | @paramsMeet d p q hd hp hq differ same =>
    obtain ⟨f, lowers⟩ := made d hd
    have distinct : ((d.params.map (·.name)).map (spell s)).Nodup := by
      have distinct := lowers.distinct
      rw [lowers.params_eq] at distinct
      simpa [paramOf, Function.comp_def] using distinct
    exact not_nodup_of_meets (List.mem_map_of_mem hp) (List.mem_map_of_mem hq) differ same distinct
  | @openCond d body clauses l hd written kept value runsOut =>
    obtain ⟨f, lowers⟩ := made d hd
    obtain ⟨n, written', lowered⟩ := lowers.body
    obtain rfl := Option.some.inj (written.symm.trans written')
    rcases lowered.kept kept with same | ⟨e, lowers⟩
    · exact value same
    · cases lowers with
      | cond closed _ =>
        rw [isClosed_eq_false_iff.2 runsOut] at closed
        cases closed

/-- A table of a program that is valid, after any number of rounds, is not lowered for one of these
reasons only: C or the runtime claims the name of a function or of a parameter, two functions or two
parameters of one function meet in C, or a conditional that is a value and is kept may run out of
clauses. The problem is one of lowering, and never about a call. -/
theorem functions_eq_error_iff {forms : List Node} {start : SymbolTable}
    (build : SymbolTable.ofForms forms = .ok start) (n : Nat)
    (rounds : Inference.round^[n] start = t) (valid : Validation.validate t = .ok ())
    (s : Settings) :
    ((∃ problem, functions t s = .error problem) ↔ ∃ problem, Refused t s problem) ∧
    ∀ problem, functions t s = .error problem →
      Refused t s problem ∧ problem.fault.kind = .lowering ∧
        (∀ operator, problem.fault ≠ .unsupported operator) ∧
        ∀ operator want got, problem.fault ≠ .operatorArity operator want got := by
  have start_sound := SymbolTable.sound_ofForms build
  have sound : t.Sound := rounds ▸ Inference.sound_iterate start_sound n
  obtain ⟨ws, -, lists⟩ := SymbolTable.lists_ofForms build
  have operators := (rounds ▸ lists.iterate start_sound n : t.Lists ws).operators
  have complete (problem : Problem) (failed : functions t s = .error problem) :
      Refused t s problem :=
    refused_of_functionsFrom sound operators
      (fun d hd body written => Validation.scoped_of_validate valid hd written)
      (Taken.within_nil s _) (fun _ hd => hd) failed
  refine ⟨⟨?_, ?_⟩, ?_⟩
  · rintro ⟨problem, failed⟩
    exact ⟨problem, complete problem failed⟩
  · rintro ⟨problem, refused⟩
    cases lowered : functions t s with
    | error problem => exact ⟨problem, rfl⟩
    | ok fs => exact (refused.not_lowered sound lowered).elim
  · intro problem failed
    have refused := complete problem failed
    refine ⟨refused, ?_⟩
    rcases refused.fault_cases with ⟨_, fault⟩ | ⟨_, fault⟩ | ⟨_, _, fault⟩ | fault <;>
      simp [fault, Fault.kind]

open Sample

/-- A conditional that runs out of clauses unless `x` is 1. -/
def onlyOne : Node :=
  .cond [(form [name "=", name "x", .int 1 here], name "x")] here

/-- Two functions with such a conditional: in the branch that is never taken, and as an argument. -/
def openForms : List Node :=
  [defun "pick" ["x"] (form [name "if", .int 1 here, name "x", onlyOne]),
   defun "next" ["x"] (form [name "+", .int 1 here, onlyOne])]

theorem functions_eq_error_iff_open : ∃ t, SymbolTable.ofForms openForms = .ok t ∧
    Validation.validate (Inference.round^[2] t) = .ok () ∧
    ∃ problem, functions (Inference.round^[2] t) {} = .error problem ∧
      Refused (Inference.round^[2] t) {} problem ∧ problem.fault.kind = .lowering := by
  obtain ⟨t, build, checked⟩ : ∃ t, SymbolTable.ofForms openForms = .ok t ∧
      ((Validation.validate (Inference.round^[2] t)).toOption.map id,
        ((functions (Inference.round^[2] t) {}).mapError (·.fault.kind)).map (fun _ => ())) =
          (some (), .error Fault.Kind.lowering) :=
    exists_eq_ok (by decide +kernel)
  obtain ⟨accepted, failed⟩ := Prod.mk.inj checked
  obtain ⟨⟨⟩, valid, -⟩ := exists_eq_ok accepted
  obtain ⟨problem, failed, -⟩ := exists_eq_error failed
  obtain ⟨-, blame⟩ := functions_eq_error_iff build 2 rfl valid {}
  obtain ⟨refused, kind, -⟩ := blame problem failed
  exact ⟨t, build, valid, problem, failed, refused, kind⟩

end LittleLisp.Lowering
