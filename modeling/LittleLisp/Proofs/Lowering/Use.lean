import LittleLisp.Proofs.C.Mention
import LittleLisp.Proofs.Lowering.Relation
import LittleLisp.Proofs.Validation.Scope

/-!
# The names that a body uses

A tree uses parameters, literals, functions of the program and operators on lists; the source keeps
these apart. The uses of a tree are listed in the order in which lowering writes them down, without
those in the branch that a choice on a constant drops and those in the condition of the last clause
of a conditional that is a value.

Every name in a lowered body is the C name of one use of its source, in order (`mentions_eq`), and
after validation every use is in scope (`inScope_bodyUses`).
-/

namespace LittleLisp

/-- What a name in a tree stands for. -/
inductive Use where
  | param (name : String)
  | literal (name : String)
  /-- A call of a function with so many arguments. -/
  | function (d : Definition) (args : Nat)
  /-- A call of an operator that the runtime provides. -/
  | operator (op : ListOp) (args : Nat)

namespace Use

/-- What an identifier stands for that is evaluated. -/
def ofName (name : String) : Use :=
  if isLiteralName name then literal name else param name

/-- The name that lowering writes for a use, where it stands. -/
def mention (s : Settings) : Use → C.Mention
  | param name | literal name => .value (Lowering.spell s name)
  | function d args => .callee (Lowering.spell s d.name) args
  | operator op args => .callee op.runtimeName args

@[simp] theorem mention_ofName (s : Settings) (name : String) :
    (ofName name).mention s = .value (Lowering.spell s name) := by
  unfold ofName
  split <;> rfl

/-- The uses of a call of `d` on arguments with these uses, where a choice may be made by a
constant. -/
def ofCall (d : Definition) (constant : Option Int) (args : List (List Use)) : List Use :=
  if d.isBuiltin then
    match d.operator, constant, args with
    | some .choice, some value, [_, yes, no] => if value ≠ 0 then yes else no
    | some (.list op), _, _ => operator op args.length :: args.flatten
    | _, _, _ => args.flatten
  else function d args.length :: args.flatten

/-- All that a use of a call can be. -/
theorem mem_ofCall {d : Definition} {constant : Option Int} {args : List (List Use)} {x : Use}
    (h : x ∈ ofCall d constant args) :
    (d.isBuiltin = false ∧ x = function d args.length) ∨
    (d.isBuiltin = true ∧ ∃ op, d.operator = some (.list op) ∧ x = operator op args.length) ∨
    ∃ arg ∈ args, x ∈ arg := by
  unfold ofCall at h
  split at h
  · next builtin =>
    split at h
    · split at h
      · exact .inr (.inr ⟨_, by simp, h⟩)
      · exact .inr (.inr ⟨_, by simp, h⟩)
    · next op is_list =>
      rcases List.mem_cons.1 h with rfl | h
      · exact .inr (.inl ⟨builtin, op, is_list, rfl⟩)
      · exact .inr (.inr (List.mem_flatten.1 h))
    · exact .inr (.inr (List.mem_flatten.1 h))
  · next function =>
    rcases List.mem_cons.1 h with rfl | h
    · exact .inl ⟨by simpa using function, rfl⟩
    · exact .inr (.inr (List.mem_flatten.1 h))

/-- A use that stands for something in the body of `d`, in a program with the table `t`. -/
def InScope (t : SymbolTable) (d : Definition) : Use → Prop
  | param name => name ∈ d.params.map (·.name)
  | literal name => isLiteralName name = true
  | function g args => g ∈ t.functions ∧ args = g.params.length
  | operator op args => args = op.arity

end Use

namespace Node

mutual

/-- The uses of a tree that is a value. -/
def uses (t : SymbolTable) : Node → List Use
  | .int _ _ | .char _ _ | .str _ _ => []
  | .ident name _ => [Use.ofName name]
  | .cond clauses _ => choiceUses t clauses
  | .call (.ident name _ :: args) _ =>
    match t.lookup name with
    | none => []
    | some d => Use.ofCall d (Lowering.leadingInt? args) (argUses t args)
  | .call _ _ => []

/-- The uses of arguments, each by itself. -/
def argUses (t : SymbolTable) : List Node → List (List Use)
  | [] => []
  | n :: rest => n.uses t :: argUses t rest

/-- The uses of the clauses of a conditional that is a value. -/
def choiceUses (t : SymbolTable) : List (Node × Node) → List Use
  | [] => []
  | [(_, result)] => result.uses t
  | (condition, result) :: next :: rest =>
    condition.uses t ++ (result.uses t ++ choiceUses t (next :: rest))

end

/-- The uses of a clause. -/
def clauseUses (t : SymbolTable) (clause : Node × Node) : List Use :=
  clause.1.uses t ++ clause.2.uses t

/-- The uses of a tree that is a body. -/
def bodyUses (t : SymbolTable) : Node → List Use
  | .cond clauses _ => clauses.flatMap (clauseUses t)
  | n => n.uses t

theorem argUses_eq (t : SymbolTable) (args : List Node) :
    argUses t args = args.map (uses t) := by
  induction args with
  | nil => rfl
  | cons n rest ih => rw [argUses, ih, List.map_cons]

/-- The uses of a call by the definition that it finds. -/
theorem uses_call {t : SymbolTable} {name : String} {d : Definition}
    (found : t.lookup name = some d) (args : List Node) (at_ l : Location) :
    uses t (.call (.ident name at_ :: args) l) =
      Use.ofCall d (Lowering.leadingInt? args) (args.map (uses t)) := by
  rw [uses, found, argUses_eq]

end Node

namespace Lowering

variable {t : SymbolTable} {s : Settings}

/-! ## Lowering writes one name for each use -/

theorem mentionsAll_eq {args : List Node} {es : List C.Expr}
    (lowered : List.Forall₂ (Lowers t s) args es)
    (each : ∀ n ∈ args, ∀ e, Lowers t s n e → e.mentions = (n.uses t).map (Use.mention s)) :
    C.Expr.mentionsAll es = (args.map (Node.uses t)).flatten.map (Use.mention s) := by
  induction lowered with
  | nil => rfl
  | @cons n e args es first later ih =>
    rw [C.Expr.mentionsAll, each n (by simp) e first,
      ih fun m hm => each m (List.mem_cons_of_mem _ hm)]
    simp

theorem mentions_choices {clauses : List (Node × Node)} {e : C.Expr}
    (lowered : LowersChoices (Lowers t s) clauses e)
    (each : ∀ c ∈ clauses, (∀ e, Lowers t s c.1 e → e.mentions = (c.1.uses t).map (Use.mention s)) ∧
      ∀ e, Lowers t s c.2 e → e.mentions = (c.2.uses t).map (Use.mention s)) :
    e.mentions = (Node.choiceUses t clauses).map (Use.mention s) := by
  induction lowered with
  | @last condition result e value => exact (each (condition, result) (by simp)).2 e value
  | @more condition result next rest c yes no test value later ih =>
    have first := each (condition, result) (by simp)
    rw [C.Expr.mentions, first.1 c test, first.2 yes value,
      ih fun x hx => each x (List.mem_cons_of_mem _ hx), Node.choiceUses]
    simp

/-- The names in a lowered expression are those of the uses of its source, in order. -/
theorem Lowers.mentions_eq {n : Node} {e : C.Expr} (h : Lowers t s n e) :
    e.mentions = (n.uses t).map (Use.mention s) := by
  induction n using Node.induction generalizing e with
  | int value l =>
    cases h
    rfl
  | char value l =>
    cases h
    rfl
  | str value l =>
    cases h
    rfl
  | ident name l =>
    cases h
    simp [C.Expr.mentions, Node.uses]
  | cond clauses l ih =>
    cases h with
    | cond closed lowered =>
      exact mentions_choices lowered fun c hc => ⟨fun _ => (ih c hc).1, fun _ => (ih c hc).2⟩
  | call members l ih =>
    cases h with
    | taken found nonzero value =>
      rw [ih _ (by simp) value, Node.uses_call found]
      simp [Use.ofCall, leadingInt?, nonzero]
    | skipped found value =>
      rw [ih _ (by simp) value, Node.uses_call found]
      simp [Use.ofCall, leadingInt?]
    | choice found constant test yes no =>
      rw [C.Expr.mentions, ih _ (by simp) test, ih _ (by simp) yes, ih _ (by simp) no,
        Node.uses_call found, constant]
      simp [Use.ofCall]
    | binary found left right =>
      rw [C.Expr.mentions, ih _ (by simp) left, ih _ (by simp) right, Node.uses_call found]
      simp [Use.ofCall]
    | @list name op args at_ _ es found arity lowered =>
      have each : ∀ n ∈ args, ∀ e, Lowers t s n e → e.mentions = (n.uses t).map (Use.mention s) :=
        fun n hn e he => ih n (List.mem_cons_of_mem _ hn) he
      rw [C.Expr.mentions, mentionsAll_eq lowered each, Node.uses_call found]
      simp [Use.ofCall, Use.mention, lowered.length_eq]
    | @call name d args at_ _ es found function lowered =>
      have each : ∀ n ∈ args, ∀ e, Lowers t s n e → e.mentions = (n.uses t).map (Use.mention s) :=
        fun n hn e he => ih n (List.mem_cons_of_mem _ hn) he
      rw [C.Expr.mentions, mentionsAll_eq lowered each, Node.uses_call found]
      simp [Use.ofCall, function, Use.mention, lowered.length_eq]

theorem clauseMentions_eq {source : Node × Node} {clause : C.Expr × C.Expr}
    (h : LowersClause t s source clause) :
    C.clauseMentions clause = (Node.clauseUses t source).map (Use.mention s) := by
  rw [C.clauseMentions, h.1.mentions_eq, h.2.mentions_eq, Node.clauseUses, List.map_append]

/-- The names in a lowered body are those of the uses of its source, in order. -/
theorem LowersBody.mentions_eq {name : String} {n : Node} {b : C.Body}
    (h : LowersBody t s name n b) : b.mentions = (n.bodyUses t).map (Use.mention s) := by
  cases h with
  | value other lowered =>
    rw [C.Body.mentions, lowered.mentions_eq]
    cases n with
    | cond clauses l => exact absurd rfl (other clauses l)
    | call | int | char | str | ident => rfl
  | cascade lowered =>
    simp only [C.Body.mentions, Node.bodyUses]
    induction lowered with
    | nil => rfl
    | cons first later ih => simp [clauseMentions_eq first, ih]

/-! ## Uses are in scope -/

open Validation (Scoped)

theorem inScope_choiceUses {d : Definition} {clauses : List (Node × Node)}
    (each : ∀ c ∈ clauses, (∀ x ∈ c.1.uses t, x.InScope t d) ∧ ∀ x ∈ c.2.uses t, x.InScope t d) :
    ∀ x ∈ Node.choiceUses t clauses, x.InScope t d := by
  induction clauses with
  | nil => simp [Node.choiceUses]
  | cons c rest ih =>
    have first := each c (by simp)
    cases rest with
    | nil => exact first.2
    | cons next rest =>
      intro x hx
      simp only [Node.choiceUses, List.mem_append] at hx
      rcases hx with hx | hx | hx
      · exact first.1 x hx
      · exact first.2 x hx
      · exact ih (fun c hc => each c (List.mem_cons_of_mem _ hc)) x hx

theorem inScope_uses (sound : t.Sound) {d : Definition} {n : Node} (checked : Scoped t d n) :
    ∀ x ∈ n.uses t, x.InScope t d := by
  induction n using Node.induction with
  | int | char | str => simp [Node.uses]
  | ident name l =>
    intro x hx
    obtain rfl : x = Use.ofName name := by simpa [Node.uses] using hx
    cases checked with
    | ident known =>
      unfold Use.ofName
      split
      · next literal => exact literal
      · next other => exact known.resolve_left other
  | cond clauses l ih =>
    cases checked with
    | cond conditions results =>
      exact inScope_choiceUses fun c hc =>
        ⟨(ih c hc).1 (conditions c hc), (ih c hc).2 (results c hc)⟩
  | call members l ih =>
    cases checked with
    | @call name g args at_ _ found arity checked =>
      intro x hx
      rw [Node.uses_call found] at hx
      rcases Use.mem_ofCall hx with ⟨function, rfl⟩ | ⟨builtin, op, is_list, rfl⟩ | ⟨arg, harg, hx⟩
      · exact ⟨sound.mem_functions_of_lookup found function, by simpa using arity⟩
      · obtain ⟨op', -, rfl⟩ := sound.operator_of_lookup found builtin
        obtain rfl : op' = .list op := Option.some.inj is_list
        simpa [Use.InScope, Definition.ofBuiltin, Builtin.paramTypes] using arity
      · obtain ⟨n, hn, rfl⟩ := List.mem_map.1 harg
        exact ih n (List.mem_cons_of_mem _ hn) (checked n hn) x hx

/-- Every use of a body in scope is in scope. -/
theorem inScope_bodyUses (sound : t.Sound) {d : Definition} {n : Node} (checked : Scoped t d n) :
    ∀ x ∈ n.bodyUses t, x.InScope t d := by
  cases n with
  | cond clauses l =>
    cases checked with
    | cond conditions results =>
      intro x hx
      obtain ⟨c, hc, hx⟩ := List.mem_flatMap.1 hx
      rcases List.mem_append.1 hx with hx | hx
      · exact inScope_uses sound (conditions c hc) x hx
      · exact inScope_uses sound (results c hc) x hx
  | call | int | char | str | ident => exact inScope_uses sound checked

end Lowering

end LittleLisp
