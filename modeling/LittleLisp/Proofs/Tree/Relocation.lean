import LittleLisp.Fault
import LittleLisp.Proofs.Tree.Induction
import LittleLisp.Tree.Reader

/-!
# Trees in another place

The reader looks at what tokens stand for. Where they stand it only passes on: to the trees, to the
extent of a form, and to the place of a fault. So when places are moved in a way that keeps extents
(`KeepsExtents`), the reader gives the same trees in the places that they were moved to, or the same
fault (`Reader.State.run_relocate`). The text of a tree does not show its places, and neither does
the message of a fault.
-/

namespace LittleLisp

variable {f : Location → Location}

namespace Node

mutual

/-- A tree with each of its places moved. -/
def relocate (f : Location → Location) : Node → Node
  | .call members l => .call (relocateAll f members) (f l)
  | .int value l => .int value (f l)
  | .char value l => .char value (f l)
  | .str value l => .str value (f l)
  | .ident name l => .ident name (f l)
  | .cond clauses l => .cond (relocateClauses f clauses) (f l)

/-- Trees with each of their places moved. -/
def relocateAll (f : Location → Location) : List Node → List Node
  | [] => []
  | n :: rest => n.relocate f :: relocateAll f rest

/-- Clauses with each of their places moved. -/
def relocateClauses (f : Location → Location) : List (Node × Node) → List (Node × Node)
  | [] => []
  | (condition, result) :: rest =>
    (condition.relocate f, result.relocate f) :: relocateClauses f rest

end

@[simp] theorem relocateAll_eq (ns : List Node) : relocateAll f ns = ns.map (relocate f) := by
  induction ns with
  | nil => rfl
  | cons n rest ih => rw [relocateAll, ih, List.map_cons]

@[simp] theorem relocateClauses_eq (cs : List (Node × Node)) :
    relocateClauses f cs = cs.map fun c => (c.1.relocate f, c.2.relocate f) := by
  induction cs with
  | nil => rfl
  | cons c rest ih => rw [relocateClauses, ih, List.map_cons]

/-! ## Texts -/

theorem memberChars_map {g : Node → Node} {ns : List Node}
    (same : ∀ n ∈ ns, (g n).chars = n.chars) : memberChars (ns.map g) = memberChars ns := by
  induction ns with
  | nil => rfl
  | cons n rest ih =>
    obtain ⟨first, later⟩ := List.forall_mem_cons.1 same
    cases rest with
    | nil => rw [List.map_singleton, memberChars, memberChars, first]
    | cons m rest =>
      have tail := ih later
      rw [List.map_cons] at tail
      rw [List.map_cons, List.map_cons, memberChars, memberChars, first, tail]

theorem clauseChars_map {g : Node → Node} {cs : List (Node × Node)}
    (same : ∀ c ∈ cs, (g c.1).chars = c.1.chars ∧ (g c.2).chars = c.2.chars) :
    clauseChars (cs.map fun c => (g c.1, g c.2)) = clauseChars cs := by
  induction cs with
  | nil => rfl
  | cons c rest ih =>
    obtain ⟨⟨condition, result⟩, later⟩ := List.forall_mem_cons.1 same
    rw [List.map_cons, clauseChars, clauseChars, condition, result, ih later]

theorem chars_relocate (n : Node) : (n.relocate f).chars = n.chars := by
  induction n using Node.induction with
  | int | char | str | ident => rfl
  | call members l ih => rw [relocate, relocateAll_eq, chars, chars, memberChars_map ih]
  | cond clauses l ih => rw [relocate, relocateClauses_eq, chars, chars, clauseChars_map ih]

/-- The text of a tree does not show its places. -/
@[simp] theorem text_relocate (n : Node) : (n.relocate f).text = n.text := by
  rw [text, text, chars_relocate]

end Node

namespace Fault

/-- A fault with the places of its tree moved. -/
def relocate (f : Location → Location) : Fault → Fault
  | badClause clause => badClause (clause.relocate f)
  | notForm tree => notForm (tree.relocate f)
  | notDefun form => notDefun (form.relocate f)
  | badName tree => badName (tree.relocate f)
  | badParameters tree => badParameters (tree.relocate f)
  | badParameter tree => badParameter (tree.relocate f)
  | notCall form => notCall (form.relocate f)
  | fault => fault

@[simp] theorem kind_relocate (fault : Fault) : (fault.relocate f).kind = fault.kind := by
  cases fault <;> rfl

theorem detail_relocate (fault : Fault) : (fault.relocate f).detail = fault.detail := by
  cases fault with
  | badClause | notForm | notDefun | badName | badParameters | badParameter | notCall =>
    exact congrArg (_ ++ ·) (Node.text_relocate _)
  | _ => rfl

/-- The message of a fault does not show the places of its tree. -/
@[simp] theorem message_relocate (fault : Fault) : (fault.relocate f).message = fault.message := by
  have operator : (fault.relocate f).operator = fault.operator := by cases fault <;> rfl
  rw [message, message, kind_relocate, detail_relocate, operator]

end Fault

/-- A problem in the place that it is moved to. -/
def Problem.relocate (f : Location → Location) (p : Problem) : Problem :=
  ⟨p.fault.relocate f, p.loc.map f⟩

/-- A token in the place that it is moved to. -/
def Token.relocate (f : Location → Location) (t : Token) : Token :=
  ⟨t.value, f t.loc⟩

/-! ## Clauses and forms -/

/-- What was read, or the fault that was found, in the place that it is moved to. -/
def relocated (f : Location → Location) {α β : Type} (move : α → β) :
    Except Problem α → Except Problem β
  | .ok a => .ok (move a)
  | .error p => .error (p.relocate f)

namespace Node

/-- A clause with its places moved. -/
def relocateClause (f : Location → Location) (c : Node × Node) : Node × Node :=
  (c.1.relocate f, c.2.relocate f)

theorem clause_relocate (n : Node) :
    clause (n.relocate f) = relocated f (relocateClause f) (clause n) := by
  cases n with
  | int | char | str | ident => rfl
  | cond clauses l => rfl
  | call members l =>
    have moved : (call members l).relocate f = call (members.map (relocate f)) (f l) := by
      rw [relocate, relocateAll_eq]
    match members with
    | [] | [_] => rfl
    | [condition, result] => cases condition <;> rfl
    | a :: b :: c :: rest =>
      have bad : relocated f (relocateClause f) (clause (call (a :: b :: c :: rest) l)) =
          .error ((Fault.badClause ((call (a :: b :: c :: rest) l).relocate f)).at (f l)) := rfl
      rw [bad, moved]
      rfl

theorem clauses_relocate (ns : List Node) :
    clauses (ns.map (relocate f)) = relocated f (List.map (relocateClause f)) (clauses ns) := by
  induction ns with
  | nil => rfl
  | cons n rest ih =>
    rw [List.map_cons, clauses, clauses, clause_relocate, ih]
    cases clause n with
    | error p => rfl
    | ok c => cases clauses rest <;> rfl

theorem ofMembers_relocate (ns : List Node) (l : Location) :
    ofMembers (ns.map (relocate f)) (f l) = relocated f (relocate f) (ofMembers ns l) := by
  have made (members : List Node) :
      call (members.map (relocate f)) (f l) = (call members l).relocate f := by
    rw [relocate, relocateAll_eq]
  cases ns with
  | nil => rfl
  | cons head args =>
    cases head with
    | ident name k =>
      rw [List.map_cons, relocate, ofMembers, ofMembers, clauses_relocate]
      split
      · cases clauses args with
        | error p => rfl
        | ok cs =>
          simp only [relocated, relocate, relocateClauses_eq]
          rfl
      · exact congrArg Except.ok (made (ident name k :: args))
    | _ => exact congrArg Except.ok (made _)

end Node

/-! ## The reader -/

namespace Reader

/-- Moving places keeps the extents of forms: the extent of a moved form is its extent, moved. -/
def KeepsExtents (f : Location → Location) : Prop :=
  ∀ start closing, formLocation (f start) (f closing) = f (formLocation start closing)

namespace State

/-- A state with each of its places moved. -/
def relocate (f : Location → Location) (s : State) : State :=
  ⟨s.frames.map fun frame => ⟨f frame.start, frame.members.map (Node.relocate f)⟩,
    s.done.map (Node.relocate f)⟩

theorem add_relocate (s : State) (n : Node) :
    (s.relocate f).add (n.relocate f) = (s.add n).relocate f := by
  obtain ⟨frames, done⟩ := s
  cases frames <;> rfl

theorem close_relocate (keeps : KeepsExtents f) (s : State) (l : Location) :
    (s.relocate f).close (f l) = relocated f (relocate f) (s.close l) := by
  obtain ⟨frames, done⟩ := s
  cases frames with
  | nil => rfl
  | cons frame outer =>
    have made := Node.ofMembers_relocate (f := f) frame.members.reverse (formLocation frame.start l)
    rw [← keeps, List.map_reverse] at made
    simp only [close, relocate, List.map_cons, made]
    cases Node.ofMembers frame.members.reverse (formLocation frame.start l) with
    | error p => rfl
    | ok n => exact congrArg Except.ok (add_relocate ⟨outer, done⟩ n)

theorem step_relocate (keeps : KeepsExtents f) (s : State) (t : Token) :
    (s.relocate f).step (t.relocate f) = relocated f (relocate f) (s.step t) := by
  obtain ⟨v, l⟩ := t
  cases v with
  | opening => rfl
  | closing => exact close_relocate keeps s l
  | int value => exact congrArg Except.ok (add_relocate s (.int value l))
  | char value => exact congrArg Except.ok (add_relocate s (.char value l))
  | str value => exact congrArg Except.ok (add_relocate s (.str value l))
  | ident name => exact congrArg Except.ok (add_relocate s (.ident name l))

/-- Tokens in other places are read as the trees in those places, or as the fault there. -/
theorem run_relocate (keeps : KeepsExtents f) (s : State) (tokens : List Token) :
    (s.relocate f).run (tokens.map (Token.relocate f)) =
      relocated f (List.map (Node.relocate f)) (s.run tokens) := by
  induction tokens generalizing s with
  | nil =>
    obtain ⟨frames, done⟩ := s
    cases frames with
    | nil => exact congrArg Except.ok List.map_reverse.symm
    | cons frame outer => rfl
  | cons t rest ih =>
    rw [List.map_cons, run, run, step_relocate keeps]
    cases s.step t with
    | error p => rfl
    | ok s' => exact ih s'

end State

end Reader

end LittleLisp
