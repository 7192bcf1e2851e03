import LittleLisp.Proofs.C.Meaning
import LittleLisp.Proofs.Lowering.Closed

/-!
# Lowering keeps the meaning of bodies

The meaning of a tree, said directly: a choice takes its second or third argument by the truth of
the first, a conditional gives the result of its first clause whose condition is true, and other
calls work on the values of their arguments. A conditional that is a whole body and has no true
clause ends in the trap, or nowhere.

The text of every generated body, read back as C and executed, ends as the body that it was made
from does, whatever operators, functions, names and literals mean.
-/

universe v w

namespace LittleLisp

open C (Interpretation Outcome)

section

variable {m : Type v → Type w} [Monad m] {V : Type v} (I : Interpretation m V)

/-- A call of `d` on arguments that are still to be evaluated. -/
def C.Interpretation.apply (d : Definition) (args : List (m V)) : m V :=
  if d.isBuiltin then
    match d.operator, args with
    | some .choice, [condition, yes, no] => do
      let c ← condition
      if I.truth c then yes else no
    | some (.binary op), [left, right] => do
      let a ← left
      let b ← right
      I.operator op a b
    | some (.list op), args => do
      let values ← C.inOrder args
      I.runtime op values
    | _, _ => I.stuck
  else do
    let values ← C.inOrder args
    I.function (C.spell d.name) values

mutual

/-- The value of a tree. -/
def Node.eval (t : SymbolTable) : Node → m V
  | .int value _ => pure (I.int value)
  | .char value _ => pure (I.literal (Text.literal Text.singleQuote [value]))
  | .str value _ => pure (I.literal (Text.literal Text.doubleQuote value.toList))
  | .ident name _ => pure (I.name (C.spell name))
  | .cond clauses _ => do
    let first ← Node.firstTrue t clauses
    first.elim I.stuck pure
  | .call (.ident name _ :: args) _ =>
    match t.lookup name with
    | some d => I.apply d (Node.evals t args)
    | none => I.stuck
  | .call _ _ => I.stuck

/-- The values of trees, each by itself. -/
def Node.evals (t : SymbolTable) : List Node → List (m V)
  | [] => []
  | n :: rest => n.eval t :: Node.evals t rest

/-- The result of the first clause whose condition is true. -/
def Node.firstTrue (t : SymbolTable) : List (Node × Node) → m (Option V)
  | [] => pure none
  | (condition, result) :: rest => do
    let c ← condition.eval t
    if I.truth c then do
      let value ← result.eval t
      pure (some value)
    else Node.firstTrue t rest

end

/-- How the function `name` ends when no clause of its body applies. -/
def noMatch (fallback : Fallback) (name : String) : Outcome V :=
  if fallback = .trap then .trapped [I.literal (Text.literal Text.doubleQuote name.toList)]
  else .fellOff

/-- How the function `name` with this body ends. -/
def Node.run (t : SymbolTable) (fallback : Fallback) (name : String) : Node → m (Outcome V)
  | .cond clauses _ => do
    let first ← Node.firstTrue I t clauses
    pure (first.elim (noMatch I fallback name) .returned)
  | n => do
    let value ← n.eval I t
    pure (.returned value)

end

namespace Lowering

variable {m : Type v → Type w} [Monad m] {V : Type v} (I : Interpretation m V)
  {t : SymbolTable} {s : Settings}

theorem evals_eq (args : List Node) : Node.evals I t args = args.map (Node.eval I t) := by
  induction args with
  | nil => rfl
  | cons n rest ih => rw [Node.evals, ih, List.map_cons]

/-- The value of a call by the definition that it finds. -/
theorem eval_call {name : String} {d : Definition} (found : t.lookup name = some d)
    (args : List Node) (at_ l : Location) :
    Node.eval I t (.call (.ident name at_ :: args) l) = I.apply d (args.map (Node.eval I t)) := by
  rw [Node.eval, found, evals_eq]

theorem evals_terms {args : List Node} {es : List C.Expr}
    (lowered : List.Forall₂ (Lowers t s) args es)
    (each : ∀ n ∈ args, ∀ e, Lowers t s n e → e.term.eval I = n.eval I t) :
    C.Term.evals I (C.Expr.terms es) = args.map (Node.eval I t) := by
  induction lowered with
  | nil => rfl
  | @cons n e args es first later ih =>
    rw [C.Expr.terms, C.Term.evals, each n (by simp) e first,
      ih fun m hm => each m (List.mem_cons_of_mem _ hm), List.map_cons]

/-- A condition that catches every case is true. -/
theorem eval_of_isCatchAll {condition : Node} (h : condition.isCatchAll = true) :
    ∃ value, condition.eval I t = pure value ∧ I.truth value = true := by
  cases condition with
  | ident name l =>
    obtain rfl : name = trueWord := by simpa [Node.isCatchAll] using h
    refine ⟨I.name (C.spell trueWord), by rw [Node.eval], ?_⟩
    rw [C.spell_of_isIdentifier (by decide)]
    exact I.truth_true
  | call | int | char | str | cond => cases h

variable [LawfulMonad m]

/-- Going on after the first true clause: with the first clause if its condition is true, and else
after the first true one of the others. -/
theorem elim_firstTrue {W : Type v} (clause : Node × Node) (rest : List (Node × Node))
    (otherwise : m W) (found : V → m W) :
    (Node.firstTrue I t (clause :: rest) >>= fun first => first.elim otherwise found) = (do
      let c ← clause.1.eval I t
      if I.truth c then clause.2.eval I t >>= found
      else Node.firstTrue I t rest >>= fun first => first.elim otherwise found) := by
  rw [Node.firstTrue, bind_assoc]
  refine bind_congr fun c => ?_
  split
  · simp
  · rfl

/-- Nested choices mean what the clauses mean that they were made from, if the last clause catches
every case. -/
theorem eval_choices {clauses : List (Node × Node)} {e : C.Expr}
    (lowered : LowersChoices (Lowers t s) clauses e) (closed : isClosed clauses = true)
    (each : ∀ c ∈ clauses, (∀ e, Lowers t s c.1 e → e.term.eval I = c.1.eval I t) ∧
      ∀ e, Lowers t s c.2 e → e.term.eval I = c.2.eval I t) :
    e.term.eval I = Node.firstTrue I t clauses >>= fun first => first.elim I.stuck pure := by
  induction lowered with
  | @last condition result e value =>
    obtain ⟨c, test, holds⟩ := eval_of_isCatchAll I (t := t) closed
    rw [(each (condition, result) (by simp)).2 e value, elim_firstTrue, test]
    simp [holds]
  | @more condition result next rest c yes no test value later ih =>
    have first := each (condition, result) (by simp)
    have tail := ih closed fun x hx => each x (List.mem_cons_of_mem _ hx)
    rw [C.Expr.term, C.Term.eval, first.1 c test, first.2 yes value, tail,
      elim_firstTrue I (condition, result)]
    simp only [bind_pure]

/-- A lowered expression means what its source means. -/
theorem Lowers.eval_eq (mangled : s.mangle = true) (sound : t.Sound)
    (free : ∀ d ∈ t.functions, C.isRuntimeName (spell s d.name) = false) {n : Node} {e : C.Expr}
    (h : Lowers t s n e) : e.term.eval I = n.eval I t := by
  have spell_eq (name : String) : spell s name = C.spell name := by
    rw [spell, if_pos mangled]
  induction n using Node.induction generalizing e with
  | int value l =>
    cases h
    rw [C.Expr.term, C.Term.eval, Node.eval]
  | char value l =>
    cases h
    rw [C.Expr.term, C.Term.eval, Node.eval]
  | str value l =>
    cases h
    rw [C.Expr.term, C.Term.eval, Node.eval]
  | ident name l =>
    cases h
    rw [C.Expr.term, C.Term.eval, Node.eval, spell_eq]
  | cond clauses l ih =>
    cases h with
    | cond closed lowered =>
      rw [Node.eval]
      exact eval_choices I lowered closed fun c hc => ⟨fun _ => (ih c hc).1, fun _ => (ih c hc).2⟩
  | call members l ih =>
    cases h with
    | taken found nonzero value =>
      rw [ih _ (by simp) value, eval_call I found]
      simp [Interpretation.apply, Node.eval, (I.truth_int _).2 nonzero]
    | skipped found value =>
      have zero : I.truth (I.int 0) = false :=
        Bool.eq_false_iff.2 fun holds => (I.truth_int 0).1 holds rfl
      rw [ih _ (by simp) value, eval_call I found]
      simp [Interpretation.apply, Node.eval, zero]
    | choice found constant test yes no =>
      rw [C.Expr.term, C.Term.eval, ih _ (by simp) test, ih _ (by simp) yes, ih _ (by simp) no,
        eval_call I found]
      rfl
    | binary found left right =>
      rw [C.Expr.term, C.Term.eval, ih _ (by simp) left, ih _ (by simp) right, eval_call I found]
      rfl
    | @list name op args at_ _ es found arity lowered =>
      rw [C.Expr.term, C.Term.eval,
        evals_terms I lowered fun n hn e he => ih n (List.mem_cons_of_mem _ hn) he,
        eval_call I found, I.callee_runtimeName]
      rfl
    | @call name d args at_ _ es found function lowered =>
      have not_runtime := free d (sound.mem_functions_of_lookup found function)
      rw [C.Expr.term, C.Term.eval,
        evals_terms I lowered fun n hn e he => ih n (List.mem_cons_of_mem _ hn) he,
        eval_call I found, I.callee_function not_runtime, spell_eq]
      simp [Interpretation.apply, function]

/-! ## Bodies -/

/-- The cascade of the clauses of a body returns the result of the first true clause, and goes on
behind the cascade if there is none. -/
theorem run_cascade (mangled : s.mangle = true) (sound : t.Sound)
    (free : ∀ d ∈ t.functions, C.isRuntimeName (spell s d.name) = false)
    {clauses : List (Node × Node)} {lowered : List (C.Expr × C.Expr)}
    (h : List.Forall₂ (LowersClause t s) clauses lowered) (rest : C.Block) :
    C.Block.run I (lowered.map C.clauseStatement ++ rest) =
      Node.firstTrue I t clauses >>= fun first =>
        first.elim (C.Block.run I rest) fun value => pure (.returned value) := by
  induction h with
  | nil => simp [Node.firstTrue]
  | @cons clause statement clauses lowered first later ih =>
    rw [List.map_cons, List.cons_append, C.clauseStatement, C.Block.run,
      first.1.eval_eq I mangled sound free, first.2.eval_eq I mangled sound free, ih,
      elim_firstTrue]

/-- Where a clause catches every case, it does not matter what happens if none applies. -/
theorem firstTrue_of_caught {clauses : List (Node × Node)}
    (caught : clauses.any (fun c => c.1.isCatchAll) = true) {W : Type v} (found : V → m W)
    (otherwise other : m W) :
    (Node.firstTrue I t clauses >>= fun first => first.elim otherwise found) =
      Node.firstTrue I t clauses >>= fun first => first.elim other found := by
  induction clauses with
  | nil => cases caught
  | cons clause rest ih =>
    rw [elim_firstTrue, elim_firstTrue]
    cases now : clause.1.isCatchAll with
    | true =>
      obtain ⟨c, test, holds⟩ := eval_of_isCatchAll I (t := t) now
      simp [test, holds]
    | false =>
      have later : rest.any (fun c => c.1.isCatchAll) = true := by
        simpa [List.any_cons, now] using caught
      rw [ih later]

/-- What stands behind the clauses of a cascade ends the body as the source says. -/
theorem run_trap (name : String) (fallback : Fallback) :
    C.Block.run I (C.trapStatements (if fallback = .trap then some name else none)) =
      pure (noMatch I fallback name) := by
  unfold noMatch
  split
  · simp [C.trapStatements, C.Block.run, C.Term.evals, C.Term.eval, C.inOrder, C.lookup_trapName]
  · rfl

/-- A lowered body ends as its source does. -/
theorem LowersBody.run_eq (mangled : s.mangle = true) (sound : t.Sound)
    (free : ∀ d ∈ t.functions, C.isRuntimeName (spell s d.name) = false) {name : String}
    {n : Node} {b : C.Body} (h : LowersBody t s name n b) :
    C.Block.run I b.block = n.run I t s.fallback name := by
  cases h with
  | @value n e other lowered =>
    have plain : n.run I t s.fallback name = (do
        let value ← n.eval I t
        pure (.returned value)) := by
      cases n with
      | cond clauses l => exact absurd rfl (other clauses l)
      | call | int | char | str | ident => rfl
    rw [plain, C.Body.block, C.Block.run, lowered.eval_eq I mangled sound free]
  | @cascade clauses l lowered each =>
    have ends : (Node.cond clauses l).run I t s.fallback name =
        Node.firstTrue I t clauses >>= fun first =>
          first.elim (pure (noMatch I s.fallback name)) fun value => pure (.returned value) := by
      rw [Node.run]
      refine bind_congr fun first => ?_
      cases first <;> rfl
    rw [C.Body.block, run_cascade I mangled sound free each, ends]
    cases caught : clauses.any (fun c => c.1.isCatchAll) with
    | true => exact firstTrue_of_caught I caught _ _ _
    | false =>
      have trap : trapOf s name clauses = if s.fallback = .trap then some name else none := by
        simp [trapOf, caught]
      rw [trap, run_trap]

end Lowering

namespace CompiledUnit

open Lowering

variable {u : CompiledUnit} {forms : List Node} {s : Settings}

/-- With mangling, C can read every name in a body. -/
theorem Lowered.named (h : u.Lowered forms s) (mangled : s.mangle = true)
    {p : Definition × C.Function} (hp : p ∈ u.functions) : C.Named p.2.body.mentions := by
  have identifier (name : String) : C.isIdentifier (spell s name).toList = true := by
    rw [spell, if_pos mangled]
    exact C.isIdentifier_spell name
  intro x hx
  obtain ⟨use, known, rfl⟩ := h.use_of_mention hp hx
  cases use with
  | param name =>
    obtain ⟨q, hq, rfl⟩ := List.mem_map.1 known
    have lowers := h.lowers p hp
    have param : paramOf s q ∈ p.2.params := by
      rw [lowers.params_eq]
      exact List.mem_map_of_mem hq
    exact ⟨identifier _, (lowers.params_allowed _ param).not_keyword⟩
  | literal name =>
    refine ⟨identifier name, ?_⟩
    rw [Use.mention, C.Mention.spelling, spell_of_isLiteralName s known]
    rcases isLiteralName_iff.1 known with rfl | rfl <;> decide
  | function g args =>
    obtain ⟨f, member⟩ := h.exists_function known.1
    have lowers := h.lowers _ member
    refine ⟨identifier _, ?_⟩
    rw [Use.mention, C.Mention.spelling, ← lowers.name_eq]
    exact lowers.name_allowed.not_keyword
  | operator op args => exact C.isName_runtimeName op

/-- The text of every generated body is read back as a block that ends as the body does that was
written in the source, for every interpretation. -/
theorem run_block {file : String} (mangled : s.mangle = true)
    (compiled : (ofForms file forms s).result = .ok u) {d : Definition} {f : C.Function}
    (member : (d, f) ∈ u.functions) :
    ∃ form ∈ forms, d.IsWritten form ∧ ∃ source block, d.body = some source ∧
      C.Block.read? f.body.text = some block ∧
      ∀ (m : Type v → Type w) [Monad m] [LawfulMonad m] (V : Type v) (I : Interpretation m V),
        block.run I = source.run I u.table s.fallback d.name := by
  have h := lowered_of_ofForms compiled
  have listed : d ∈ u.table.functions := by
    rw [← h.definitions]
    exact List.mem_map_of_mem member
  obtain ⟨form, hform, written⟩ := h.written d listed
  obtain ⟨source, body, lowers⟩ := (h.lowers _ member).body
  refine ⟨form, hform, written, source, f.body.block, body, ?_, ?_⟩
  · exact C.read?_text f.body (h.named mangled member)
  · intro m _ _ V I
    exact lowers.run_eq I mangled h.sound h.not_isRuntimeName

theorem run_block_sample : ∃ u d f, (ofForms "sample" sampleForms {}).result = .ok u ∧
    (d, f) ∈ u.functions ∧ d.name = "f" ∧ ∃ form ∈ sampleForms, d.IsWritten form ∧
      ∃ source block, d.body = some source ∧ C.Block.read? f.body.text = some block ∧
        ∀ I : Interpretation Option Int, block.run I = source.run I u.table .trap "f" := by
  obtain ⟨u, d, f, compiled, member, name⟩ := @ofForms_sample "f" (by simp)
  obtain ⟨form, hform, written, source, block, body, read, run⟩ := run_block rfl compiled member
  refine ⟨u, d, f, compiled, member, name, form, hform, written, source, block, body, read, ?_⟩
  intro I
  rw [← name]
  exact run Option Int I

end CompiledUnit

end LittleLisp
