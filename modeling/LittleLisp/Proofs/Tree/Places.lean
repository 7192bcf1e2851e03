import LittleLisp.Proofs.Source.Place
import LittleLisp.Proofs.Token.Step
import LittleLisp.Proofs.Tree.Grammar

/-!
# Places of trees

The place of a node, and of a fault that reading finds, is that of a token, or that of the opening
parenthesis of a form with the extent of the form. So it points into the source.

That the lexer puts its tokens in places of the source is one induction along its steps
(`keepsTo_scan`). The reader is shown to keep to any places that are closed under extents (`Closed`),
by an invariant of its state.
-/

namespace LittleLisp

/-- A problem has a place, and it is one of these. -/
def Problem.Placed (P : Location → Prop) (p : Problem) : Prop :=
  ∃ l, p.loc = some l ∧ P l

/-- The places of a tree and of everything in it are among these. -/
inductive Node.Placed (P : Location → Prop) : Node → Prop where
  | int (value : Int) {l : Location} (here : P l) : Placed P (.int value l)
  | char (value : Char) {l : Location} (here : P l) : Placed P (.char value l)
  | str (value : String) {l : Location} (here : P l) : Placed P (.str value l)
  | ident (name : String) {l : Location} (here : P l) : Placed P (.ident name l)
  | call {members : List Node} {l : Location} (here : P l) (each : ∀ n ∈ members, Placed P n) :
    Placed P (.call members l)
  | cond {clauses : List (Node × Node)} {l : Location} (here : P l)
    (conditions : ∀ c ∈ clauses, Placed P c.1) (results : ∀ c ∈ clauses, Placed P c.2) :
    Placed P (.cond clauses l)

/-- A piece of work keeps to these places: what it makes has the property, or its problem has a place
among these. -/
def KeepsTo (P : Location → Prop) {α : Type} (made : α → Prop) : Except Problem α → Prop
  | .ok a => made a
  | .error p => p.Placed P

variable {P : Location → Prop}

theorem KeepsTo.cases {α : Type} {made : α → Prop} {r : Except Problem α} (h : KeepsTo P made r) :
    (∃ a, r = .ok a ∧ made a) ∨ ∃ p, r = .error p ∧ p.Placed P := by
  cases r with
  | ok a => exact .inl ⟨a, rfl, h⟩
  | error p => exact .inr ⟨p, rfl, h⟩

theorem KeepsTo.of_ok {α : Type} {made : α → Prop} {r : Except Problem α} (h : KeepsTo P made r)
    {a : α} (ok : r = .ok a) : made a := by
  rwa [ok] at h

theorem KeepsTo.of_error {α : Type} {made : α → Prop} {r : Except Problem α} (h : KeepsTo P made r)
    {p : Problem} (failed : r = .error p) : p.Placed P := by
  rwa [failed] at h

theorem Fault.placed_at {l : Location} (h : P l) (fault : Fault) : (fault.at l).Placed P :=
  ⟨l, rfl, h⟩

theorem Node.Placed.loc {n : Node} (h : n.Placed P) : P n.loc := by
  cases h with
  | int _ here | char _ here | str _ here | ident _ here | call here | cond here => exact here

/-! ## Tokens -/

/-- The tokens of what is left of a source keep to the places of the source. -/
theorem Token.keepsTo_scan {file : String} {before rest : Source} :
    KeepsTo (·.PointsInto file (before ++ rest))
      (fun tokens => ∀ t ∈ tokens, t.loc.PointsInto file (before ++ rest))
      (scan file (Position.start.advance before) rest) := by
  generalize place : Position.start.advance before = p
  induction p, rest using scan.induct file generalizing before with
  | case1 p =>
    rw [scan]
    exact List.forall_mem_nil _
  | case2 p first rest more skips ih =>
    have later := @ih (before ++ first :: rest.take more) (by rw [Position.advance_append, place])
    rw [append_take_drop] at later
    rw [scan, skips]
    exact later
  | case3 p first rest value more len takes tokens read ih =>
    have later := @ih (before ++ first :: rest.take more) (by rw [Position.advance_append, place])
    rw [append_take_drop, read] at later
    rw [scan, takes]
    simp only [read]
    refine List.forall_mem_cons.2 ⟨⟨rfl, before, first, rest, rfl, ?_, place⟩, later⟩
    exact ne_newline_of_step rest (by simp [takes])
  | case4 p first rest value more len takes problem fails ih =>
    have later := @ih (before ++ first :: rest.take more) (by rw [Position.advance_append, place])
    rw [append_take_drop, fails] at later
    rw [scan, takes]
    simp only [fails]
    exact later
  | case5 p first rest cause len faults =>
    rw [scan, faults]
    refine Fault.placed_at ⟨rfl, before, first, rest, rfl, ?_, place⟩ cause
    exact ne_newline_of_step rest (by simp [faults])

/-! ## Clauses and forms -/

namespace Node

variable {l : Location}

theorem keepsTo_clause {n : Node} (h : n.Placed P) :
    KeepsTo P (fun c => c.1.Placed P ∧ c.2.Placed P) (clause n) := by
  cases made : clause n with
  | ok c =>
    obtain ⟨k, rfl, -⟩ := clause_eq_ok made
    cases h with
    | call _ each => exact ⟨each _ (by simp), each _ (by simp)⟩
  | error p =>
    unfold clause at made
    split at made
    · next condition result k =>
      cases h with
      | call _ each =>
        split at made
        · next clauses at_ =>
          obtain rfl := Except.error.inj made
          have place : P (Node.cond clauses at_).loc := (each _ (by simp)).loc
          exact Fault.placed_at place _
        · cases made
    · obtain rfl := Except.error.inj made
      exact Fault.placed_at h.loc _

theorem keepsTo_ofMembers {members : List Node} (here : P l) (each : ∀ n ∈ members, n.Placed P) :
    KeepsTo P (Node.Placed P) (ofMembers members l) := by
  cases made : ofMembers members l with
  | ok n =>
    obtain ⟨rfl, -⟩ | ⟨head, args, cs, rfl, -, read, rfl⟩ := ofMembers_eq_ok made
    · exact .call here each
    · have parts : ∀ c ∈ cs, c.1.Placed P ∧ c.2.Placed P := by
        intro c hc
        obtain ⟨m, hm, made⟩ := clauses_eq_ok read c hc
        exact (keepsTo_clause (each m (List.mem_cons_of_mem _ hm))).of_ok made
      exact .cond here (fun c hc => (parts c hc).1) (fun c hc => (parts c hc).2)
  | error p =>
    obtain ⟨head, args, rfl, -, failed⟩ := ofMembers_eq_error made
    obtain ⟨m, hm, bad⟩ := exists_of_clauses_eq_error failed
    exact (keepsTo_clause (each m (List.mem_cons_of_mem _ hm))).of_error bad

end Node

/-! ## The reader -/

namespace Reader

/-- With the place where a form starts, its extent is among these places as well. -/
def Closed (P : Location → Prop) : Prop :=
  ∀ start closing, P start → P (formLocation start closing)

namespace State

/-- All that the reader has read is in these places. -/
structure Placed (P : Location → Prop) (s : State) : Prop where
  frames : ∀ frame ∈ s.frames, P frame.start ∧ ∀ n ∈ frame.members, n.Placed P
  done : ∀ n ∈ s.done, n.Placed P

theorem Placed.add {s : State} (h : s.Placed P) {n : Node} (hn : n.Placed P) :
    (s.add n).Placed P := by
  obtain ⟨frames, done⟩ := s
  cases frames with
  | nil => exact ⟨by simp [State.add], List.forall_mem_cons.2 ⟨hn, h.done⟩⟩
  | cons frame outer =>
    obtain ⟨⟨start, members⟩, others⟩ := List.forall_mem_cons.1 h.frames
    exact ⟨List.forall_mem_cons.2 ⟨⟨start, List.forall_mem_cons.2 ⟨hn, members⟩⟩, others⟩, h.done⟩

theorem Placed.close (closed : Closed P) {s : State} (h : s.Placed P) {l : Location} (here : P l) :
    KeepsTo P (Placed P) (s.close l) := by
  obtain ⟨frames, done⟩ := s
  cases frames with
  | nil => exact Fault.placed_at here _
  | cons frame outer =>
    obtain ⟨⟨start, members⟩, others⟩ := List.forall_mem_cons.1 h.frames
    have outside : Placed P ⟨outer, done⟩ := ⟨others, h.done⟩
    have kept := Node.keepsTo_ofMembers (closed frame.start l start)
      (fun n hn => members n (List.mem_reverse.1 hn))
    simp only [State.close]
    rcases kept.cases with ⟨n, made, placed⟩ | ⟨p, failed, placed⟩
    · rw [made]
      exact outside.add placed
    · rw [failed]
      exact placed

theorem Placed.step (closed : Closed P) {s : State} (h : s.Placed P) {t : Token} (here : P t.loc) :
    KeepsTo P (Placed P) (s.step t) := by
  obtain ⟨v, l⟩ := t
  cases v with
  | opening => exact ⟨List.forall_mem_cons.2 ⟨⟨here, by simp⟩, h.frames⟩, h.done⟩
  | closing => exact h.close closed here
  | int value => exact h.add (.int value here)
  | char value => exact h.add (.char value here)
  | str value => exact h.add (.str value here)
  | ident name => exact h.add (.ident name here)

/-- A run of the reader keeps to the places of its tokens. -/
theorem Placed.run (closed : Closed P) {s : State} (h : s.Placed P) {tokens : List Token}
    (places : ∀ t ∈ tokens, P t.loc) : KeepsTo P (∀ n ∈ ·, n.Placed P) (s.run tokens) := by
  induction tokens generalizing s with
  | nil =>
    obtain ⟨frames, done⟩ := s
    cases frames with
    | nil => exact fun n hn => h.done n (List.mem_reverse.1 hn)
    | cons frame outer => exact Fault.placed_at (h.frames frame List.mem_cons_self).1 _
  | cons t rest ih =>
    obtain ⟨first, later⟩ := List.forall_mem_cons.1 places
    rw [State.run]
    rcases (h.step closed first).cases with ⟨s', taken, placed⟩ | ⟨p, failed, placed⟩
    · rw [taken]
      exact ih placed later
    · rw [failed]
      exact placed

end State

end Reader

theorem closed_pointsInto (file : String) (source : Source) :
    Reader.Closed (·.PointsInto file source) :=
  fun _ _ h => h

/-- Reading a source keeps to its places. -/
theorem Node.keepsTo_parse (file : String) (source : Source) :
    KeepsTo (·.PointsInto file source) (∀ n ∈ ·, n.Placed (·.PointsInto file source))
      (parse file source) := by
  have lexed : KeepsTo (·.PointsInto file source)
      (fun tokens => ∀ t ∈ tokens, t.loc.PointsInto file source) (Token.lex file source) :=
    @Token.keepsTo_scan file [] source
  have empty : Reader.State.empty.Placed (·.PointsInto file source) :=
    ⟨List.forall_mem_nil _, List.forall_mem_nil _⟩
  unfold parse
  rcases lexed.cases with ⟨tokens, read, places⟩ | ⟨p, failed, placed⟩
  · rw [read]
    exact empty.run (closed_pointsInto file source) places
  · rw [failed]
    exact placed

end LittleLisp
