import LittleLisp.Proofs.Token.Extent
import LittleLisp.Proofs.Tree.Induction
import LittleLisp.Proofs.Tree.Grammar

/-!
# What a tree is read from

A tree is read from a piece of the source: a leaf from a token, and a form from its parentheses and
what is between them, which is a row of trees, blanks and comments (`ReadFrom`). The reader is shown to
keep such rows: one at the top level, and one behind the parenthesis of each form that is open
(`Holds`). So every tree that comes out has its piece (`StandsAt`), which its place tells
(`StandsAt.unique`), and the pieces of the parts of a form lie in that of the form, one behind the other
(`StandsAt.ordered_parts`).
-/

namespace LittleLisp

open Reader (formLocation)
open Token (Takes Skips)

/-- The tree that a token is by itself, if it is no parenthesis. -/
def Token.leaf? (t : Token) : Option Node :=
  match t.value with
  | .opening | .closing => none
  | .int n => some (.int n t.loc)
  | .char c => some (.char c t.loc)
  | .str s => some (.str s t.loc)
  | .ident name => some (.ident name t.loc)

theorem Token.loc_of_leaf? {t : Token} {n : Node} (h : t.leaf? = some n) : n.loc = t.loc := by
  obtain ⟨v, l⟩ := t
  cases v <;> cases h <;> rfl

namespace Node

theorem loc_of_ofMembers {members : List Node} {l : Location} {n : Node}
    (h : ofMembers members l = .ok n) : n.loc = l := by
  obtain ⟨rfl, -⟩ | ⟨-, -, -, -, -, -, rfl⟩ := ofMembers_eq_ok h
  · rfl
  · rfl

/-! ## Pieces of source -/

/-- Trees that are read, as `R` says, from a piece of source between `before` and `after`, one after
the other and with nothing but blanks and comments around them. -/
inductive Row (R : Node → Source → Source → Source → Prop) :
    List Node → Source → Source → Source → Prop where
  | nil (before after : Source) : Row R [] before [] after
  | skip {ns : List Node} {before inner gap after : Source}
    (row : Row R ns before inner (gap ++ after)) (skips : Skips gap after) :
    Row R ns before (inner ++ gap) after
  | add {ns : List Node} {n : Node} {before inner piece after : Source}
    (row : Row R ns before inner (piece ++ after)) (read : R n (before ++ inner) piece after) :
    Row R (ns ++ [n]) before (inner ++ piece) after

/-- A tree is read from a piece of source between `before` and `after`. -/
inductive ReadFrom (file : String) : Node → Source → Source → Source → Prop where
  | leaf {n : Node} {before piece after : Source} {v : Token.Value} {len : Nat}
    (takes : Takes piece after v len)
    (leaf : Token.leaf? ⟨v, .behind file before len⟩ = some n) : ReadFrom file n before piece after
  | form {n : Node} {members : List Node} {before inner after : Source}
    (row : Row (ReadFrom file) members (before ++ [Source.openParen]) inner
      (Source.closeParen :: after))
    (made : ofMembers members (formLocation (.behind file before 1)
      (.behind file (before ++ Source.openParen :: inner) 1)) = .ok n) :
    ReadFrom file n before (Source.openParen :: (inner ++ [Source.closeParen])) after

variable {file : String} {n : Node} {before piece after source : Source}

/-- A tree starts where its piece starts. -/
theorem ReadFrom.start (h : ReadFrom file n before piece after) :
    n.loc.start = Position.start.advance before := by
  cases h with
  | leaf _ leaf =>
    rw [Token.loc_of_leaf? leaf]
    rfl
  | form _ made =>
    rw [loc_of_ofMembers made]
    rfl

/-- A form stops where its piece stops. -/
theorem stop_of_form {members : List Node} {inner : Source}
    (made : ofMembers members (formLocation (.behind file before 1)
      (.behind file (before ++ Source.openParen :: inner) 1)) = .ok n) :
    n.loc.stop = some (Position.start.advance
      (before ++ Source.openParen :: (inner ++ [Source.closeParen]))) := by
  rw [loc_of_ofMembers made, ← List.cons_append, ← List.append_assoc, Position.advance_append]
  rfl

/-- A leaf is read from one token, and a form stops where its piece stops. -/
theorem ReadFrom.stop (h : ReadFrom file n before piece after) :
    (n.loc.stop = none ∧ ∃ v len, Takes piece after v len) ∨
      n.loc.stop = some (Position.start.advance (before ++ piece)) := by
  cases h with
  | leaf takes leaf =>
    rw [Token.loc_of_leaf? leaf]
    exact .inl ⟨rfl, _, _, takes⟩
  | form _ made => exact .inr (stop_of_form made)

/-- In a source, a tree is read from `piece`, which stands behind `before`. -/
def StandsAt (n : Node) (file : String) (source before piece : Source) : Prop :=
  ∃ after, before ++ (piece ++ after) = source ∧ ReadFrom file n before piece after

/-- The place of a tree tells what it is read from. -/
theorem StandsAt.unique {before' piece' : Source} (h : n.StandsAt file source before piece)
    (h' : n.StandsAt file source before' piece') : before = before' ∧ piece = piece' := by
  obtain ⟨after, whole, read⟩ := h
  obtain ⟨after', whole', read'⟩ := h'
  obtain rfl : before = before' :=
    Position.eq_of_advance_eq ⟨_, whole⟩ ⟨_, whole'⟩ (read.start.symm.trans read'.start)
  have left : piece ++ after = piece' ++ after' := List.append_cancel_left (whole.trans whole'.symm)
  refine ⟨rfl, ?_⟩
  rcases read.stop with ⟨open_, v, len, takes⟩ | stop <;>
    rcases read'.stop with ⟨open_', v', len', takes'⟩ | stop'
  · exact takes.unique takes' left
  · cases open_.symm.trans stop'
  · cases open_'.symm.trans stop
  · have ends := Option.some.inj (stop.symm.trans stop')
    rw [Position.advance_append, Position.advance_append] at ends
    exact Position.eq_of_advance_eq ⟨_, rfl⟩ ⟨_, left.symm⟩ ends

/-! ## Parts of forms -/

/-- The piece of one tree is in the piece of another one. -/
def Within (file : String) (source : Source) (m n : Node) : Prop :=
  ∃ b p before piece, m.StandsAt file source b p ∧ n.StandsAt file source before piece ∧
    before <+: b ∧ b ++ p <+: before ++ piece

/-- The piece of one tree ends before the piece of another one starts. -/
def Precedes (file : String) (source : Source) (m n : Node) : Prop :=
  ∃ b p before piece, m.StandsAt file source b p ∧ n.StandsAt file source before piece ∧
    b ++ p <+: before

theorem Within.trans {k m n : Node} (h : k.Within file source m) (h' : m.Within file source n) :
    k.Within file source n := by
  obtain ⟨b, p, before, piece, inner, outer, start, stop⟩ := h
  obtain ⟨b', p', before', piece', inner', outer', start', stop'⟩ := h'
  obtain ⟨rfl, rfl⟩ := outer.unique inner'
  exact ⟨b, p, before', piece', inner, outer', start'.trans start, stop.trans stop'⟩

theorem Precedes.of_within {k l m n : Node} (h : m.Precedes file source n)
    (left : k.Within file source m) (right : l.Within file source n) :
    k.Precedes file source l := by
  obtain ⟨b, p, before, piece, first, second, apart⟩ := h
  obtain ⟨b₁, p₁, _, _, inner, outer, -, stop⟩ := left
  obtain ⟨b₂, p₂, _, _, inner', outer', start, -⟩ := right
  obtain ⟨rfl, rfl⟩ := outer.unique first
  obtain ⟨rfl, rfl⟩ := outer'.unique second
  exact ⟨b₁, p₁, b₂, p₂, inner, inner', (stop.trans apart).trans start⟩

section Rows

variable {ns : List Node} {inner : Source}

/-- A tree stands in the piece between `before` and `after`. -/
def StandsIn (n : Node) (file : String) (before inner after : Source) : Prop :=
  ∃ b p, n.StandsAt file (before ++ (inner ++ after)) b p ∧ before <+: b ∧ b ++ p <+: before ++ inner

theorem StandsIn.append {more : Source} (h : n.StandsIn file before inner (more ++ after)) :
    n.StandsIn file before (inner ++ more) after := by
  obtain ⟨b, p, stands, start, stop⟩ := h
  refine ⟨b, p, ?_, start, stop.trans ?_⟩
  · rwa [List.append_assoc]
  · rw [← List.append_assoc]
    exact List.prefix_append _ _

/-- Each tree of a row stands in it. -/
theorem Row.stands (row : Row (ReadFrom file) ns before inner after) :
    ∀ n ∈ ns, n.StandsIn file before inner after := by
  induction row with
  | nil => exact List.forall_mem_nil _
  | skip row _ ih => exact fun n hn => (ih n hn).append
  | @add ns n before inner piece after row read ih =>
    refine List.forall_mem_append.2 ⟨fun m hm => (ih m hm).append, List.forall_mem_singleton.2 ?_⟩
    refine ⟨before ++ inner, piece, ⟨after, by simp, read⟩, List.prefix_append _ _, ?_⟩
    exact ⟨[], by simp⟩

/-- The trees of a row stand one behind the other. -/
theorem Row.ordered (row : Row (ReadFrom file) ns before inner after) :
    ns.Pairwise (Precedes file (before ++ (inner ++ after))) := by
  induction row with
  | nil => exact .nil
  | skip row _ ih =>
    rw [List.append_assoc]
    exact ih
  | @add ns n before inner piece after row read ih =>
    rw [List.append_assoc]
    refine List.pairwise_append.2 ⟨ih, List.pairwise_singleton _ _, fun m hm => ?_⟩
    refine List.forall_mem_singleton.2 ?_
    obtain ⟨b, p, stands, -, stop⟩ := row.stands m hm
    exact ⟨b, p, before ++ inner, piece, stands, ⟨after, by simp, read⟩, stop⟩

end Rows

/-- A tree without parts, or a form whose members stand in it, one behind the other. -/
theorem StandsAt.cases (h : n.StandsAt file source before piece) :
    n.parts = [] ∨ ∃ members l, ofMembers members l = .ok n ∧
      (∀ m ∈ members, m.Within file source n) ∧ members.Pairwise (Precedes file source) := by
  obtain ⟨after, whole, read⟩ := id h
  cases read with
  | @leaf n before piece after v len takes leaf =>
    left
    cases v <;> cases leaf <;> rfl
  | @form n members before inner after row made =>
    right
    have inside : (before ++ [Source.openParen]) ++ (inner ++ Source.closeParen :: after) =
        source := by
      rw [← whole]
      simp
    have ordered := row.ordered
    rw [inside] at ordered
    refine ⟨members, _, made, fun m hm => ?_, ordered⟩
    obtain ⟨b, p, stands, start, stop⟩ := row.stands m hm
    rw [inside] at stands
    refine ⟨b, p, _, _, stands, h, (List.prefix_append _ _).trans start, stop.trans ?_⟩
    exact ⟨[Source.closeParen], by simp⟩

/-- The members of a call stand in it, one behind the other. -/
theorem StandsAt.members {members : List Node} {l : Location}
    (h : (call members l).StandsAt file source before piece) :
    (∀ m ∈ members, m.Within file source (call members l)) ∧
      members.Pairwise (Precedes file source) := by
  rcases h.cases with none | ⟨ns, k, made, within, ordered⟩
  · obtain rfl : members = [] := none
    exact ⟨List.forall_mem_nil _, .nil⟩
  · obtain ⟨same, -⟩ | ⟨head, args, cs, -, -, -, other⟩ := ofMembers_eq_ok made
    · obtain ⟨rfl, rfl⟩ := call.inj same
      exact ⟨within, ordered⟩
    · cases other

/-- Clauses are the parts of the calls that they were. -/
theorem parts_of_clauses {args : List Node} {cs : List (Node × Node)} (h : clauses args = .ok cs) :
    (cs.flatMap fun c => [c.1, c.2]) = args.flatMap parts ∧
      ∀ a ∈ args, ∃ l, a = .call a.parts l := by
  have each := forall₂_of_clauses h
  clear h
  induction each with
  | nil => exact ⟨rfl, List.forall_mem_nil _⟩
  | cons made _ ih =>
    obtain ⟨l, rfl, -⟩ := clause_eq_ok made
    rw [List.flatMap_cons, List.flatMap_cons, ih.1, parts]
    exact ⟨rfl, List.forall_mem_cons.2 ⟨⟨l, rfl⟩, ih.2⟩⟩

/-- The parts of a tree stand in it, one behind the other. -/
theorem StandsAt.ordered_parts (h : n.StandsAt file source before piece) :
    (∀ m ∈ n.parts, m.Within file source n) ∧ n.parts.Pairwise (Precedes file source) := by
  rcases h.cases with none | ⟨members, l, made, within, ordered⟩
  · rw [none]
    exact ⟨List.forall_mem_nil _, .nil⟩
  · obtain ⟨rfl, -⟩ | ⟨head, args, cs, rfl, -, read, rfl⟩ := ofMembers_eq_ok made
    · exact ⟨within, ordered⟩
    · -- The parts of a conditional are those of its clauses, which were calls.
      obtain ⟨-, within⟩ := List.forall_mem_cons.1 within
      obtain ⟨same, calls⟩ := parts_of_clauses read
      have inside : ∀ a ∈ args, (∀ m ∈ a.parts, m.Within file source a) ∧
          a.parts.Pairwise (Precedes file source) := by
        intro a ha
        obtain ⟨b, p, -, -, stands, -⟩ := within a ha
        obtain ⟨k, call_⟩ := calls a ha
        rw [call_] at stands ⊢
        exact stands.members
      rw [parts, same]
      constructor
      · intro m hm
        obtain ⟨a, ha, member⟩ := List.mem_flatMap.1 hm
        exact ((inside a ha).1 m member).trans (within a ha)
      · refine List.pairwise_flatMap.2 ⟨fun a ha => (inside a ha).2, ?_⟩
        refine (List.pairwise_cons.1 ordered).2.imp_of_mem ?_
        intro a b ha hb apart k hk l hl
        exact apart.of_within ((inside a ha).1 k hk) ((inside b hb).1 l hl)

end Node

/-! ## The reader -/

open Node (Row ReadFrom)

namespace Reader.State

variable {file : String} {s s' : State} {before piece after : Source}

/-- What the reader has read so far: a row at the top level, and for each open form a row behind its
parenthesis. -/
inductive Holds (file : String) : State → Source → Source → Prop where
  | top {done : List Node} {before after : Source}
    (row : Row (ReadFrom file) done.reverse [] before after) : Holds file ⟨[], done⟩ before after
  | frame {outer : List Frame} {done members : List Node} {before inner after : Source}
    (outside : Holds file ⟨outer, done⟩ before (Source.openParen :: (inner ++ after)))
    (row : Row (ReadFrom file) members.reverse (before ++ [Source.openParen]) inner after) :
    Holds file ⟨⟨.behind file before 1, members⟩ :: outer, done⟩
      (before ++ Source.openParen :: inner) after

theorem Holds.skip (h : s.Holds file before (piece ++ after)) (skips : Skips piece after) :
    s.Holds file (before ++ piece) after := by
  cases h with
  | top row => exact .top (row.skip skips)
  | @frame outer done members before inner after outside row =>
    rw [List.append_assoc, List.cons_append]
    rw [← List.append_assoc] at outside
    exact .frame outside (row.skip skips)

theorem Holds.add {n : Node} (h : s.Holds file before (piece ++ after))
    (read : ReadFrom file n before piece after) : (s.add n).Holds file (before ++ piece) after := by
  cases h with
  | @top done before after row =>
    refine .top ?_
    rw [List.reverse_cons]
    exact row.add read
  | @frame outer done members before inner after outside row =>
    rw [List.append_assoc, List.cons_append]
    rw [← List.append_assoc] at outside
    rw [List.append_cons] at read
    refine .frame outside ?_
    rw [List.reverse_cons]
    exact row.add read

/-- A form that is closed is read from its parentheses and all between them. -/
theorem Holds.close (h : s.Holds file before (Source.closeParen :: after))
    (closed : s.close (.behind file before 1) = .ok s') :
    s'.Holds file (before ++ [Source.closeParen]) after := by
  cases h with
  | top => cases closed
  | @frame outer done members before inner after outside row =>
    simp only [State.close] at closed
    split at closed
    · next n made =>
      obtain rfl := Except.ok.inj closed
      have read := ReadFrom.form row made
      rw [List.append_assoc, List.cons_append]
      refine Holds.add ?_ read
      simpa using outside
    · cases closed

/-- A token is taken into what the reader has read. -/
theorem Holds.step {v : Token.Value} {len : Nat} (h : s.Holds file before (piece ++ after))
    (takes : Takes piece after v len) (taken : s.step ⟨v, .behind file before len⟩ = .ok s') :
    s'.Holds file (before ++ piece) after := by
  have leaf {n : Node} (alone : Token.leaf? ⟨v, .behind file before len⟩ = some n)
      (added : (.ok (s.add n) : Except Problem State) = .ok s') :
      s'.Holds file (before ++ piece) after := by
    obtain rfl := Except.ok.inj added
    exact h.add (.leaf takes alone)
  have measured := takes.measured
  cases v with
  | opening =>
    cases measured
    obtain rfl := Except.ok.inj taken
    exact .frame h (.nil _ _)
  | closing =>
    cases measured
    exact h.close taken
  | int value => exact leaf rfl taken
  | char value => exact leaf rfl taken
  | str value => exact leaf rfl taken
  | ident name => exact leaf rfl taken

/-- At the end of a run, the trees are a row that makes up the source. -/
theorem Holds.run {rest : Source} {tokens : List Token} {forms : List Node}
    (h : s.Holds file before rest)
    (scanned : Token.scan file (Position.start.advance before) rest = .ok tokens)
    (ran : s.run tokens = .ok forms) : Row (ReadFrom file) forms [] (before ++ rest) [] := by
  generalize place : Position.start.advance before = p at scanned
  induction p, rest using Token.scan.induct file generalizing before s tokens with
  | case1 p =>
    rw [Token.scan] at scanned
    obtain rfl := Except.ok.inj scanned
    cases h with
    | top row =>
      obtain rfl := Except.ok.inj ran
      rwa [List.append_nil]
    | frame => cases ran
  | case2 p first rest more skips ih =>
    rw [Token.scan, skips] at scanned
    rw [← List.take_append_drop more rest, ← List.cons_append] at h
    rw [← Token.append_take_drop before rest first more]
    refine ih (h.skip (Token.skips_of_step skips)) ran ?_ scanned
    rw [Position.advance_append, place]
  | case3 p first rest value more len takes later read ih =>
    simp only [Token.scan, takes, read] at scanned
    obtain rfl := Except.ok.inj scanned
    rw [State.run] at ran
    split at ran
    · next s' taken =>
      rw [← place, ← Location.behind] at taken
      rw [← List.take_append_drop more rest, ← List.cons_append] at h
      rw [← Token.append_take_drop before rest first more]
      refine ih (h.step (Token.takes_of_step takes) taken) ran ?_ read
      rw [Position.advance_append, place]
    · cases ran
  | case4 p first rest value more len takes problem fails ih =>
    simp only [Token.scan, takes, fails] at scanned
    cases scanned
  | case5 p first rest cause len faults =>
    rw [Token.scan, faults] at scanned
    cases scanned

end Reader.State

namespace Node

/-- The trees of a source are a row that makes it up. -/
theorem row_of_parse {file : String} {source : Source} {forms : List Node}
    (parsed : parse file source = .ok forms) : Row (ReadFrom file) forms [] source [] := by
  unfold parse at parsed
  split at parsed
  · next tokens lexed =>
    have empty : Reader.State.empty.Holds file [] source := .top (.nil [] source)
    exact empty.run lexed parsed
  · cases parsed

/-- Every tree of a source is read from a piece of it. -/
theorem exists_standsAt_of_parse {file : String} {source : Source} {forms : List Node}
    (parsed : parse file source = .ok forms) :
    ∀ n ∈ forms.flatMap walk, ∃ before piece, n.StandsAt file source before piece := by
  intro n hn
  obtain ⟨form, hform, inside⟩ := List.mem_flatMap.1 hn
  obtain ⟨before, piece, stands, -⟩ := (row_of_parse parsed).stands form hform
  rw [List.nil_append, List.append_nil] at stands
  have down (m : Node) (h : ∃ b p, m.StandsAt file source b p) :
      ∀ k ∈ m.parts, ∃ b p, k.StandsAt file source b p := by
    obtain ⟨b, p, stands⟩ := h
    intro k hk
    obtain ⟨b', p', -, -, part, -⟩ := stands.ordered_parts.1 k hk
    exact ⟨b', p', part⟩
  exact forall_mem_walk down ⟨before, piece, stands⟩ n inside

end Node

end LittleLisp
