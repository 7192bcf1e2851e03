import LittleLisp.Proofs.Tree.RoundTrip
import Mathlib.Data.List.Forall2

/-!
# What the reader accepts

Tokens are grouped by their parentheses into `Sexp`s, which know nothing about `cond`. The reader
accepts a list of tokens when the parentheses balance and every list that is headed by `cond` has
only clauses after its head; what it returns has the same tokens, with the heads spelled `cond`.

The argument is one lemma about a single group (`Sexp.decided`): in any state and before any tokens,
the reader either turns the group into a tree that has the shape of the group (`Sexp.IsReadAs`), or
fails on it, and then some list inside the group has a member that is no clause.
-/

namespace LittleLisp

/-! ## Groups of tokens -/

/-- Tokens as their parentheses group them: one token, or a list in parentheses. -/
inductive Sexp where
  | atom (v : Token.Value) (plain : v ≠ .opening ∧ v ≠ .closing)
  | list (members : List Sexp)

namespace Sexp

mutual

/-- The tokens of a group. -/
def values : Sexp → List Token.Value
  | atom v _ => [v]
  | list members => .opening :: (valuesAll members ++ [.closing])

/-- The tokens of groups, one after the other. -/
def valuesAll : List Sexp → List Token.Value
  | [] => []
  | x :: rest => x.values ++ valuesAll rest

end

/-- The group is the word `cond`, in any case. -/
def IsCondWord : Sexp → Prop
  | atom v _ => ∃ name, v = .ident name ∧ isNamed name condWord = true
  | list _ => False

/-- The group is a list whose first member is the word `cond`. -/
def IsCondList : Sexp → Prop
  | list (head :: _) => head.IsCondWord
  | _ => False

/-- The group is a list of a condition and a result, where neither the list nor the condition is
headed by `cond`. -/
def IsClause (x : Sexp) : Prop :=
  ∃ condition result, x = list [condition, result] ∧
    ¬ condition.IsCondWord ∧ ¬ condition.IsCondList

/-- What holds of a list when it holds of its members, and of every token, holds of every group. -/
@[elab_as_elim]
theorem induction {motive : Sexp → Prop} (atom : ∀ v plain, motive (.atom v plain))
    (list : ∀ members, (∀ x ∈ members, motive x) → motive (.list members)) (x : Sexp) : motive x :=
  @Sexp.rec motive (fun members => ∀ x ∈ members, motive x) atom list
    (List.forall_mem_nil _) (fun _ _ first rest => List.forall_mem_cons.2 ⟨first, rest⟩) x

end Sexp

namespace Token

/-- No part at the front closes more parentheses than it opens, and all are closed in the end. -/
structure Balanced (vs : List Token.Value) : Prop where
  front : ∀ part, part <+: vs → part.count .closing ≤ part.count .opening
  whole : vs.count .closing = vs.count .opening

/-- In every list of the tokens that is headed by `cond`, every other member is a clause. -/
def CondsInOrder (vs : List Token.Value) : Prop :=
  ∀ before head args after, vs = before ++ (Sexp.list (head :: args)).values ++ after →
    head.IsCondWord → ∀ x ∈ args, x.IsClause

/-- The tokens with `cond` spelled in lower case wherever it heads a list, and all else as it is. -/
def respellConds : List Token.Value → List Token.Value
  | .opening :: .ident name :: rest =>
    .opening :: .ident (if isNamed name condWord then condWord else name) :: respellConds rest
  | v :: rest => v :: respellConds rest
  | [] => []

theorem respellConds_cons {v : Token.Value} (plain : v ≠ .opening) (rest : List Token.Value) :
    respellConds (v :: rest) = v :: respellConds rest := by
  cases v with
  | opening => exact absurd rfl plain
  | closing | int | char | str | ident => rfl

theorem CondsInOrder.part (before : List Token.Value) {vs : List Token.Value}
    (after : List Token.Value) (h : CondsInOrder (before ++ vs ++ after)) : CondsInOrder vs := by
  intro front head args back eq cond
  apply h (before ++ front) head args (back ++ after)
  · simp only [eq, List.append_assoc]
  · exact cond

end Token

/-! ## Balanced tokens are groups -/

namespace Sexp

/-- The tokens of groups with a closing parenthesis between each two. -/
def closed : List Sexp → List (List Sexp) → List Token.Value
  | first, [] => valuesAll first
  | first, next :: rest => valuesAll first ++ .closing :: closed next rest

theorem closed_cons (x : Sexp) (first : List Sexp) (rest : List (List Sexp)) :
    closed (x :: first) rest = x.values ++ closed first rest := by
  cases rest with
  | nil => rfl
  | cons next rest => simp [closed, valuesAll]

/-- Tokens close `depth` parentheses more than they open, and no part at the front closes more. -/
structure Closes (depth : Nat) (vs : List Token.Value) : Prop where
  front : ∀ part, part <+: vs → part.count .closing ≤ depth + part.count .opening
  whole : vs.count .closing = depth + vs.count .opening

/-- What is left to close after the first token. -/
theorem Closes.tail {depth left : Nat} {v : Token.Value} {vs : List Token.Value}
    (h : Closes depth (v :: vs))
    (change : depth + [v].count .opening = left + [v].count .closing) : Closes left vs := by
  have counts (part : List Token.Value) (a : Token.Value) :
      (v :: part).count a = [v].count a + part.count a := by
    rw [← List.count_append, List.singleton_append]
  constructor
  · intro part hpart
    have bound := h.front (v :: part) ((List.prefix_cons_inj v).2 hpart)
    rw [counts part, counts part] at bound
    omega
  · have total := h.whole
    rw [counts vs, counts vs] at total
    omega

theorem Closes.pos {depth : Nat} {vs : List Token.Value} (h : Closes depth (.closing :: vs)) :
    0 < depth :=
  h.front [.closing] ⟨vs, rfl⟩

/-- Tokens that close `depth` parentheses are that many groups ended by parentheses and one that is
not. -/
theorem Closes.exists_closed {depth : Nat} {vs : List Token.Value} (h : Closes depth vs) :
    ∃ first rest, rest.length = depth ∧ closed first rest = vs := by
  induction vs generalizing depth with
  | nil =>
    have none : depth = 0 := by simpa using h.whole.symm
    exact ⟨[], [], none.symm, rfl⟩
  | cons v vs ih =>
    by_cases opens : v = .opening
    · subst opens
      have inside : Closes (depth + 1) vs := h.tail rfl
      obtain ⟨inner, rest, length, eq⟩ := ih inside
      obtain ⟨next, rest, rfl⟩ := List.exists_cons_of_length_eq_add_one length
      refine ⟨list inner :: next, rest, by simpa using length, ?_⟩
      rw [closed_cons, ← eq]
      simp [values, closed]
    · by_cases closes : v = .closing
      · subst closes
        obtain ⟨depth, rfl⟩ : ∃ k, depth = k + 1 := ⟨depth - 1, by have := h.pos; omega⟩
        have outside : Closes depth vs := h.tail rfl
        obtain ⟨first, rest, rfl, eq⟩ := ih outside
        refine ⟨[], first :: rest, rfl, ?_⟩
        rw [← eq]
        rfl
      · have same : Closes depth vs := h.tail (by simp [opens, closes])
        obtain ⟨first, rest, length, eq⟩ := ih same
        refine ⟨atom v ⟨opens, closes⟩ :: first, rest, length, ?_⟩
        rw [closed_cons, eq]
        rfl

end Sexp

/-- Balanced tokens are groups, one after the other. -/
theorem Token.Balanced.exists_groups {vs : List Token.Value} (h : Balanced vs) :
    ∃ xs, Sexp.valuesAll xs = vs := by
  have closes : Sexp.Closes 0 vs := by
    constructor
    · intro part hpart
      rw [Nat.zero_add]
      exact h.front part hpart
    · rw [Nat.zero_add]
      exact h.whole
  obtain ⟨first, rest, length, eq⟩ := closes.exists_closed
  obtain rfl := List.length_eq_zero_iff.1 length
  exact ⟨first, eq⟩

/-! ## Forms that fail, and clauses -/

namespace Node

/-- A form that fails when it is closed is headed by `cond` and has a bad clause. -/
theorem ofMembers_eq_error {ns : List Node} {l : Location} {p : Problem}
    (h : ofMembers ns l = .error p) :
    ∃ head args, ns = head :: args ∧ head.IsCondWord ∧ clauses args = .error p := by
  unfold ofMembers at h
  split at h
  · next name at_ args =>
    split at h
    · next named =>
      split at h
      · cases h
      · next problem read =>
        obtain rfl := Except.error.inj h
        exact ⟨_, args, rfl, ⟨name, at_, rfl, named⟩, read⟩
    · cases h
  · cases h

theorem forall₂_of_clauses {args : List Node} {cs : List (Node × Node)}
    (h : clauses args = .ok cs) : List.Forall₂ (fun n c => clause n = .ok c) args cs := by
  induction args generalizing cs with
  | nil =>
    obtain rfl := Except.ok.inj h
    exact .nil
  | cons n rest ih =>
    simp only [clauses] at h
    split at h
    · cases h
    · next c first =>
      split at h
      · cases h
      · next later read =>
        obtain rfl := Except.ok.inj h
        exact .cons first (ih read)

theorem exists_of_clauses_eq_error {args : List Node} {p : Problem} (h : clauses args = .error p) :
    ∃ n ∈ args, clause n = .error p := by
  induction args with
  | nil => cases h
  | cons n rest ih =>
    simp only [clauses] at h
    split at h
    · next problem first =>
      obtain rfl := Except.error.inj h
      exact ⟨n, by simp, first⟩
    · split at h
      · next problem read =>
        obtain rfl := Except.error.inj h
        obtain ⟨m, hm, bad⟩ := ih read
        exact ⟨m, List.mem_cons_of_mem _ hm, bad⟩
      · cases h

/-- The tokens of clauses are the tokens of the forms that they were made of. -/
theorem clauseValues_of_clauses {args : List Node} {cs : List (Node × Node)}
    (h : clauses args = .ok cs) : clauseValues cs = memberValues args := by
  have each := forall₂_of_clauses h
  clear h
  induction each with
  | nil => rfl
  | cons made _ ih =>
    obtain ⟨l, rfl, -⟩ := clause_eq_ok made
    simp [clauseValues, memberValues, values, ih]

/-- Every fault of a clause is one of reading. -/
theorem kind_of_clause_eq_error {n : Node} {p : Problem} (h : clause n = .error p) :
    p.fault.kind = .reading := by
  unfold clause at h
  split at h
  · split at h
    · obtain rfl := Except.error.inj h
      rfl
    · cases h
  · obtain rfl := Except.error.inj h
    rfl

end Node

/-! ## Groups and trees of the same shape -/

/-- The tree has the shape of the group, as the reader folds it. -/
inductive Sexp.IsReadAs : Sexp → Node → Prop
  | int (value : Int) (plain) (l : Location) : IsReadAs (.atom (.int value) plain) (.int value l)
  | char (value : Char) (plain) (l : Location) :
      IsReadAs (.atom (.char value) plain) (.char value l)
  | str (value : String) (plain) (l : Location) :
      IsReadAs (.atom (.str value) plain) (.str value l)
  | ident (name : String) (plain) (l : Location) :
      IsReadAs (.atom (.ident name) plain) (.ident name l)
  | list {members : List Sexp} {ns : List Node} {l : Location} {n : Node} :
      List.Forall₂ IsReadAs members ns → Node.ofMembers ns l = .ok n → IsReadAs (.list members) n

namespace Sexp.IsReadAs

variable {x : Sexp} {n : Node}

theorem isCondWord_iff (h : x.IsReadAs n) : n.IsCondWord ↔ x.IsCondWord := by
  cases h with
  | int | char | str => simp [Node.IsCondWord, IsCondWord]
  | ident name plain l => simp [Node.IsCondWord, IsCondWord]
  | list members made =>
    obtain ⟨rfl, -⟩ | ⟨_, _, cs, -, -, -, rfl⟩ := Node.ofMembers_eq_ok made
    · simp [Node.IsCondWord, IsCondWord]
    · simp [Node.IsCondWord, IsCondWord]

theorem isCond_iff (h : x.IsReadAs n) : n.IsCond ↔ x.IsCondList := by
  cases h with
  | int | char | str | ident => simp [Node.IsCond, IsCondList]
  | list members made =>
    obtain ⟨rfl, plain⟩ | ⟨head, args, cs, rfl, word, -, rfl⟩ := Node.ofMembers_eq_ok made
    · cases members with
      | nil => simp [Node.IsCond, IsCondList]
      | cons first rest =>
        have other := mt first.isCondWord_iff.2 (plain _ rfl)
        simp [Node.IsCond, IsCondList, other]
    · cases members with
      | cons first rest =>
        have cond := first.isCondWord_iff.1 word
        simp [Node.IsCond, IsCondList, cond]

/-- A tree is taken for a clause just when its group is one. -/
theorem clause_iff (h : x.IsReadAs n) : (∃ c, Node.clause n = .ok c) ↔ x.IsClause := by
  constructor
  · rintro ⟨c, made⟩
    obtain ⟨l, rfl, plain⟩ := Node.clause_eq_ok made
    cases h with
    | list members made =>
      obtain ⟨same, head⟩ | ⟨_, _, _, -, -, -, same⟩ := Node.ofMembers_eq_ok made
      · obtain ⟨rfl, -⟩ := Node.call.inj same
        cases members with
        | cons condition rest =>
          cases rest with
          | cons result rest =>
            cases rest with
            | nil =>
              exact ⟨_, _, rfl, mt condition.isCondWord_iff.2 (head _ rfl),
                mt condition.isCond_iff.2 plain⟩
      · cases same
  · rintro ⟨condition, result, rfl, word, cond⟩
    cases h with
    | list members made =>
      obtain ⟨rfl, -⟩ | ⟨_, _, _, rfl, head, -, rfl⟩ := Node.ofMembers_eq_ok made
      · cases members with
        | cons first rest =>
          cases rest with
          | cons second rest =>
            cases rest with
            | nil => exact ⟨_, Node.clause_of_not_isCond (mt first.isCond_iff.1 cond) _ _⟩
      · cases members with
        | cons first rest => exact absurd (first.isCondWord_iff.1 head) word

theorem clauses_of_isClause {xs : List Sexp} {ns : List Node}
    (reads : List.Forall₂ IsReadAs xs ns) (each : ∀ x ∈ xs, x.IsClause) :
    ∃ cs, Node.clauses ns = .ok cs := by
  induction reads with
  | nil => exact ⟨[], rfl⟩
  | cons read _ ih =>
    obtain ⟨first, later⟩ := List.forall_mem_cons.1 each
    obtain ⟨c, made⟩ := read.clause_iff.2 first
    obtain ⟨cs, rest⟩ := ih later
    exact ⟨c :: cs, by simp only [Node.clauses, made, rest]⟩

theorem isClause_of_clauses {xs : List Sexp} {ns : List Node} {cs : List (Node × Node)}
    (reads : List.Forall₂ IsReadAs xs ns) (made : Node.clauses ns = .ok cs) :
    ∀ x ∈ xs, x.IsClause := by
  have each := Node.forall₂_of_clauses made
  clear made
  induction reads generalizing cs with
  | nil => simp
  | cons read _ ih =>
    cases each with
    | cons first later =>
      exact List.forall_mem_cons.2 ⟨read.clause_iff.1 ⟨_, first⟩, ih later⟩

end Sexp.IsReadAs

/-! ## Reading a group -/

namespace Sexp

open Reader (State)
open Token (CondsInOrder)

/-- In any state, the reader turns the tokens of the group into a tree of its shape, or it fails on
them and a list inside the group is at fault. -/
def Decided (x : Sexp) : Prop :=
  ∀ (s : State) {tokens : List Token}, tokens.map (·.value) = x.values →
    (∃ n, x.IsReadAs n ∧ ∀ rest, s.run (tokens ++ rest) = (s.add n).run rest) ∨
    (¬ CondsInOrder x.values ∧ ∃ p, ∀ rest, s.run (tokens ++ rest) = .error p)

/-- Groups are read one after the other, up to the first that fails. -/
theorem decided_all {xs : List Sexp} (each : ∀ x ∈ xs, x.Decided) (s : State)
    {tokens : List Token} (h : tokens.map (·.value) = valuesAll xs) :
    (∃ ns, List.Forall₂ IsReadAs xs ns ∧
      ∀ rest, s.run (tokens ++ rest) = (ns.foldl State.add s).run rest) ∨
    (¬ CondsInOrder (valuesAll xs) ∧ ∃ p, ∀ rest, s.run (tokens ++ rest) = .error p) := by
  induction xs generalizing s tokens with
  | nil =>
    obtain rfl := List.map_eq_nil_iff.1 h
    exact .inl ⟨[], .nil, fun rest => rfl⟩
  | cons x xs ih =>
    obtain ⟨first, later⟩ := List.forall_mem_cons.1 each
    obtain ⟨front, back, rfl, h_front, h_back⟩ := List.map_eq_append_iff.1 h
    rcases first s h_front with ⟨n, read, step⟩ | ⟨bad, p, fails⟩
    · rcases ih later (s.add n) h_back with ⟨ns, reads, steps⟩ | ⟨bad, p, fails⟩
      · refine .inl ⟨n :: ns, .cons read reads, ?_⟩
        intro rest
        rw [List.append_assoc, step, steps, List.foldl_cons]
      · refine .inr ⟨?_, p, ?_⟩
        · intro order
          apply bad
          apply CondsInOrder.part x.values []
          simpa [valuesAll] using order
        · intro rest
          rw [List.append_assoc, step, fails]
    · refine .inr ⟨?_, p, ?_⟩
      · intro order
        exact bad (CondsInOrder.part [] _ order)
      · intro rest
        rw [List.append_assoc, fails]

theorem decided_atom (v : Token.Value) (plain : v ≠ .opening ∧ v ≠ .closing) :
    (atom v plain).Decided := by
  intro s tokens h
  obtain ⟨t, rfl, rfl⟩ := List.map_eq_singleton_iff.1 h
  obtain ⟨value, l⟩ := t
  cases value with
  | opening => exact absurd rfl plain.1
  | closing => exact absurd rfl plain.2
  | int value => exact .inl ⟨_, .int value plain l, fun rest => rfl⟩
  | char value => exact .inl ⟨_, .char value plain l, fun rest => rfl⟩
  | str value => exact .inl ⟨_, .str value plain l, fun rest => rfl⟩
  | ident name => exact .inl ⟨_, .ident name plain l, fun rest => rfl⟩

theorem decided_list {members : List Sexp} (each : ∀ x ∈ members, x.Decided) :
    (list members).Decided := by
  intro s tokens h
  obtain ⟨opening, inner, rfl, h_opening, h_inner⟩ := List.map_eq_cons_iff.1 h
  obtain ⟨inside, last, rfl, h_inside, h_last⟩ := List.map_eq_append_iff.1 h_inner
  obtain ⟨closing, rfl, h_closing⟩ := List.map_eq_singleton_iff.1 h_last
  let entered : State := ⟨⟨opening.loc, []⟩ :: s.frames, s.done⟩
  have opens : s.step opening = .ok entered := by
    rw [State.step, h_opening]
  have starts (rest : List Token) : s.run (opening :: (inside ++ [closing]) ++ rest) =
      entered.run (inside ++ closing :: rest) := by
    rw [List.cons_append, Node.run_of_step opens, List.append_assoc, List.singleton_append]
  rcases decided_all each entered h_inside with ⟨ns, reads, steps⟩ | ⟨bad, p, fails⟩
  · have inside_done (rest : List Token) : s.run (opening :: (inside ++ [closing]) ++ rest) =
        State.run ⟨⟨opening.loc, ns.reverse⟩ :: s.frames, s.done⟩ (closing :: rest) := by
      rw [starts, steps, Node.foldl_add_open, List.append_nil]
    cases made : Node.ofMembers ns (Reader.formLocation opening.loc closing.loc) with
    | ok n =>
      refine .inl ⟨n, .list reads made, ?_⟩
      intro rest
      have closes : State.step ⟨⟨opening.loc, ns.reverse⟩ :: s.frames, s.done⟩ closing =
          .ok (s.add n) := by
        simp only [State.step, h_closing, State.close, List.reverse_reverse, made]
      rw [inside_done, Node.run_of_step closes]
    | error p =>
      refine .inr ⟨?_, p, ?_⟩
      · -- The bad clause comes from a member that is no clause.
        intro order
        obtain ⟨head, args, rfl, word, failed⟩ := Node.ofMembers_eq_error made
        cases reads with
        | @cons x _ xs _ first others =>
          have each := order [] x xs [] (by simp) (first.isCondWord_iff.1 word)
          obtain ⟨cs, made⟩ := IsReadAs.clauses_of_isClause others each
          rw [failed] at made
          cases made
      · intro rest
        rw [inside_done, State.run]
        simp only [State.step, h_closing, State.close, List.reverse_reverse, made]
  · refine .inr ⟨?_, p, ?_⟩
    · intro order
      exact bad (CondsInOrder.part [.opening] [.closing] order)
    · intro rest
      rw [starts, fails]

/-- Every group is read, or the fault is in one of its lists. -/
theorem decided (x : Sexp) : x.Decided := by
  induction x using Sexp.induction with
  | atom v plain => exact decided_atom v plain
  | list members ih => exact decided_list ih

end Sexp

/-! ## The tokens of what is read -/

namespace Sexp

open Token (respellConds)

/-- The tokens of trees that groups are read as, given that it is so for each. -/
theorem respellConds_valuesAll {xs : List Sexp} {ns : List Node}
    (reads : List.Forall₂ IsReadAs xs ns)
    (each : ∀ x ∈ xs, ∀ n, x.IsReadAs n → ∀ rest,
      respellConds (x.values ++ rest) = n.values ++ respellConds rest)
    (rest : List Token.Value) :
    respellConds (valuesAll xs ++ rest) = Node.memberValues ns ++ respellConds rest := by
  induction reads with
  | nil => rfl
  | cons read _ ih =>
    obtain ⟨first, later⟩ := List.forall_mem_cons.1 each
    simp only [valuesAll, Node.memberValues, List.append_assoc]
    rw [first _ read, ih later]

/-- The first member of a list decides how the head of the list is spelled. -/
theorem respellConds_opening_valuesAll {xs : List Sexp} {ns : List Node}
    (reads : List.Forall₂ IsReadAs xs ns) (head : ∀ n ∈ ns.head?, ¬ n.IsCondWord)
    (rest : List Token.Value) :
    respellConds (.opening :: (valuesAll xs ++ .closing :: rest)) =
      .opening :: respellConds (valuesAll xs ++ .closing :: rest) := by
  cases reads with
  | nil => rfl
  | @cons x n xs ns read _ =>
    have plain := head n rfl
    cases read with
    | int | char | str => rfl
    | ident name _ l =>
      have other : isNamed name condWord = false := by
        by_contra named
        exact plain ⟨name, l, rfl, by simpa using named⟩
      simp [valuesAll, values, respellConds, other]
    | list => rfl

/-- A tree has the tokens of its group, except for the spelling of heads. -/
theorem IsReadAs.respellConds_values {x : Sexp} {n : Node} (read : x.IsReadAs n)
    (rest : List Token.Value) :
    respellConds (x.values ++ rest) = n.values ++ respellConds rest := by
  induction x using Sexp.induction generalizing n rest with
  | atom v plain =>
    rw [values, List.singleton_append, Token.respellConds_cons plain.1]
    cases read with
    | int | char | str | ident => rfl
  | list members ih =>
    cases read with
    | list reads made =>
      have inside := respellConds_valuesAll reads (fun x hx n read rest => ih x hx read rest)
      have shape : (Sexp.list members).values ++ rest =
          .opening :: (valuesAll members ++ .closing :: rest) := by
        simp [values]
      rw [shape]
      obtain ⟨rfl, head⟩ | ⟨word, args, cs, rfl, cond, read, rfl⟩ := Node.ofMembers_eq_ok made
      · rw [respellConds_opening_valuesAll reads head, inside]
        simp [Node.values, Token.respellConds_cons]
      · cases reads with
        | @cons x _ xs _ first others =>
          have head := first.isCondWord_iff.1 cond
          cases x with
          | list => cases head
          | atom v plain =>
            obtain ⟨name, rfl, named⟩ := head
            have later := respellConds_valuesAll others
              (fun x hx n read rest => ih x (List.mem_cons_of_mem _ hx) read rest)
            simp only [valuesAll, values, List.cons_append, List.nil_append, respellConds, named,
              if_true]
            rw [later, Node.values, Node.clauseValues_of_clauses read,
              Token.respellConds_cons (by simp)]
            simp

end Sexp

/-! ## Runs of the reader -/

namespace Reader.State

/-- A token that is taken opens a form, closes one or leaves their number as it is. -/
theorem frames_of_step {s s' : State} {t : Token} (h : s.step t = .ok s') :
    s'.frames.length + [t.value].count .closing = s.frames.length + [t.value].count .opening := by
  have add (s : State) (n : Node) : (s.add n).frames.length = s.frames.length := by
    unfold State.add
    split
    · next none => simp [none]
    · next some => simp [some]
  unfold State.step at h
  split at h
  · next value =>
    obtain rfl := Except.ok.inj h
    simp [value]
  · next value =>
    unfold State.close at h
    split at h
    · cases h
    · next frame outer open_ =>
      split at h
      · obtain rfl := Except.ok.inj h
        simp [value, add, open_]
      · cases h
  all_goals
    next value =>
    obtain rfl := Except.ok.inj h
    simp [value, add]

/-- What is left to read when a run succeeds closes the open forms, and never more than those. -/
theorem closes_of_run {s : State} {tokens : List Token} {forms : List Node}
    (h : s.run tokens = .ok forms) :
    (∀ part, part <+: tokens.map (·.value) →
      part.count .closing ≤ s.frames.length + part.count .opening) ∧
    (tokens.map (·.value)).count .closing =
      s.frames.length + (tokens.map (·.value)).count .opening := by
  induction tokens generalizing s with
  | nil =>
    simp only [State.run, State.finish] at h
    split at h
    · next none => simp [none]
    · cases h
  | cons t rest ih =>
    simp only [State.run] at h
    split at h
    · next s' taken =>
      have moved := frames_of_step taken
      obtain ⟨front, whole⟩ := ih h
      have split_count (v : Token.Value) (part : List Token.Value) :
          (t.value :: part).count v = [t.value].count v + part.count v := by
        rw [← List.count_append, List.singleton_append]
      constructor
      · intro part hpart
        rcases List.prefix_cons_iff.1 hpart with rfl | ⟨later, rfl, hlater⟩
        · simp
        · have bound := front later hlater
          rw [split_count .closing, split_count .opening]
          omega
      · rw [List.map_cons, split_count .closing, split_count .opening]
        omega
    · cases h

/-- Every fault that the reader finds is one of reading. -/
theorem kind_of_run_eq_error {s : State} {tokens : List Token} {p : Problem}
    (h : s.run tokens = .error p) : p.fault.kind = .reading := by
  induction tokens generalizing s with
  | nil =>
    simp only [State.run, State.finish] at h
    split at h
    · cases h
    · obtain rfl := Except.error.inj h
      rfl
  | cons t rest ih =>
    simp only [State.run] at h
    split at h
    · exact ih h
    · next problem failed =>
      obtain rfl := Except.error.inj h
      unfold State.step at failed
      split at failed
      · cases failed
      · unfold State.close at failed
        split at failed
        · obtain rfl := Except.error.inj failed
          rfl
        · split at failed
          · cases failed
          · next made =>
            obtain rfl := Except.error.inj failed
            obtain ⟨_, _, -, -, failed⟩ := Node.ofMembers_eq_error made
            obtain ⟨n, -, bad⟩ := Node.exists_of_clauses_eq_error failed
            exact Node.kind_of_clause_eq_error bad
      all_goals cases failed

/-- A run that succeeds takes all tokens at its front. -/
theorem exists_state_of_run {s : State} {front back : List Token} {forms : List Node}
    (h : s.run (front ++ back) = .ok forms) : ∃ s' : State, s'.run back = .ok forms := by
  induction front generalizing s with
  | nil => exact ⟨s, h⟩
  | cons t rest ih =>
    simp only [List.cons_append, State.run] at h
    split at h
    · exact ih h
    · cases h

end Reader.State

namespace Node

open Reader (State)
open Token (Balanced CondsInOrder respellConds)

theorem balanced_of_ofTokens {tokens : List Token} {forms : List Node}
    (h : ofTokens tokens = .ok forms) : Balanced (tokens.map (·.value)) := by
  obtain ⟨front, whole⟩ := State.closes_of_run h
  simp only [State.empty, List.length_nil, Nat.zero_add] at front whole
  exact ⟨front, whole⟩

/-- The reader comes to a list inside the tokens in some state, and gets past it only if all that
follows a head `cond` is a clause. -/
theorem condsInOrder_of_ofTokens {tokens : List Token} {forms : List Node}
    (h : ofTokens tokens = .ok forms) : CondsInOrder (tokens.map (·.value)) := by
  intro before head args after eq cond
  obtain ⟨front, back, rfl, h_front, h_back⟩ := List.map_eq_append_iff.1 eq
  obtain ⟨outside, inside, rfl, h_outside, h_inside⟩ := List.map_eq_append_iff.1 h_front
  rw [ofTokens, List.append_assoc] at h
  obtain ⟨s, h⟩ := State.exists_state_of_run h
  rcases Sexp.decided _ s h_inside with ⟨n, read, -⟩ | ⟨-, p, fails⟩
  · cases read with
    | list reads made =>
      cases reads with
      | cons first others =>
        have word := first.isCondWord_iff.2 cond
        obtain ⟨-, plain⟩ | ⟨_, _, cs, same, -, made, -⟩ := ofMembers_eq_ok made
        · exact absurd word (plain _ rfl)
        · obtain ⟨-, rfl⟩ := List.cons.inj same
          exact Sexp.IsReadAs.isClause_of_clauses others made
  · rw [fails] at h
    cases h

/-- The reader on groups: trees of their shape, or a failure. -/
theorem ofTokens_groups {tokens : List Token} {xs : List Sexp}
    (h : tokens.map (·.value) = Sexp.valuesAll xs) :
    (∃ ns, List.Forall₂ Sexp.IsReadAs xs ns ∧ ofTokens tokens = .ok ns) ∨
    (¬ CondsInOrder (tokens.map (·.value)) ∧ ∃ p, ofTokens tokens = .error p) := by
  rcases Sexp.decided_all (fun x _ => x.decided) State.empty h with ⟨ns, reads, runs⟩ | ⟨bad, p, fails⟩
  · have all := runs []
    rw [List.append_nil, State.empty, foldl_add_empty, List.append_nil] at all
    refine .inl ⟨ns, reads, ?_⟩
    rw [ofTokens, State.empty, all]
    simp [State.run, State.finish]
  · have all := fails []
    rw [List.append_nil] at all
    exact .inr ⟨h ▸ bad, p, all⟩

/-- The reader accepts just the tokens whose parentheses balance and whose lists headed by `cond`
have only clauses after the head. What it returns has the tokens that it was given, with those heads
spelled `cond`, and every failure is one of reading. -/
theorem ofTokens_accepts_grammar (tokens : List Token) :
    ((∃ forms, ofTokens tokens = .ok forms) ↔
      Balanced (tokens.map (·.value)) ∧ CondsInOrder (tokens.map (·.value))) ∧
    (∀ forms, ofTokens tokens = .ok forms →
      memberValues forms = respellConds (tokens.map (·.value))) ∧
    (∀ problem, ofTokens tokens = .error problem → problem.fault.kind = .reading) := by
  refine ⟨⟨?_, ?_⟩, ?_, ?_⟩
  · rintro ⟨forms, read⟩
    exact ⟨balanced_of_ofTokens read, condsInOrder_of_ofTokens read⟩
  · rintro ⟨balanced, order⟩
    obtain ⟨xs, groups⟩ := balanced.exists_groups
    rcases ofTokens_groups groups.symm with ⟨ns, -, read⟩ | ⟨bad, -⟩
    · exact ⟨ns, read⟩
    · exact absurd order bad
  · intro forms read
    obtain ⟨xs, groups⟩ := (balanced_of_ofTokens read).exists_groups
    rcases ofTokens_groups groups.symm with ⟨ns, reads, same⟩ | ⟨-, p, fails⟩
    · obtain rfl := Except.ok.inj (read.symm.trans same)
      have values := Sexp.respellConds_valuesAll reads (fun x _ n read => read.respellConds_values) []
      rw [List.append_nil, groups] at values
      rw [values]
      simp [respellConds]
    · rw [read] at fails
      cases fails
  · intro problem failed
    exact State.kind_of_run_eq_error failed

end Node

end LittleLisp
