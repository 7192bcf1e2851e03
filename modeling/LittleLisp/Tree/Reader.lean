import LittleLisp.Token.Lexer

/-!
# From tokens to trees

The reader keeps the forms that are open, innermost first, each with the members it has so far. A
token is a tree of its own, opens a form or closes the innermost one. A form that is closed becomes
a call, or a conditional if `cond` heads it.
-/

namespace LittleLisp

namespace Node

/-- A member of a `cond` after its head: a form of a condition and a result. The condition is not a
conditional itself. -/
def clause : Node → Except Problem (Node × Node)
  | call [condition, result] _ =>
    match condition with
    | cond _ l => .error (Fault.nestedCond.at l)
    | _ => .ok (condition, result)
  | other => .error ((Fault.badClause other).at other.loc)

/-- The clauses of a `cond`; the first bad one decides the fault. -/
def clauses : List Node → Except Problem (List (Node × Node))
  | [] => .ok []
  | n :: rest =>
    match clause n with
    | .error problem => .error problem
    | .ok c =>
      match clauses rest with
      | .error problem => .error problem
      | .ok cs => .ok (c :: cs)

/-- The tree of a form that has been closed. -/
def ofMembers (members : List Node) (l : Location) : Except Problem Node :=
  match members with
  | ident name at_ :: args =>
    if isNamed name condWord then
      match clauses args with
      | .ok cs => .ok (cond cs l)
      | .error problem => .error problem
    else .ok (call (ident name at_ :: args) l)
  | _ => .ok (call members l)

end Node

namespace Reader

/-- A form that is open: where it starts, and its members so far, last first. -/
structure Frame where
  start : Location
  members : List Node
deriving Repr

/-- The extent of a form between its parentheses. One on a single line also knows its length. -/
def formLocation (start closing : Location) : Location :=
  { start with
    stop := some ⟨closing.line, closing.col + 1⟩
    len := if closing.line = start.line then closing.col + 1 - start.col else start.len }

/-- The forms that are open, innermost first, and the finished top-level trees, last first. -/
structure State where
  frames : List Frame
  done : List Node
deriving Repr

namespace State

/-- Nothing read yet. -/
def empty : State :=
  ⟨[], []⟩

/-- Adds a finished tree to the innermost form, or to the top level. -/
def add (s : State) (n : Node) : State :=
  match s.frames with
  | [] => ⟨[], n :: s.done⟩
  | frame :: outer => ⟨⟨frame.start, n :: frame.members⟩ :: outer, s.done⟩

/-- Closes the innermost form. -/
def close (s : State) (l : Location) : Except Problem State :=
  match s.frames with
  | [] => .error (Fault.strayClose.at l)
  | frame :: outer =>
    match Node.ofMembers frame.members.reverse (formLocation frame.start l) with
    | .ok n => .ok (add ⟨outer, s.done⟩ n)
    | .error problem => .error problem

/-- Takes one token. -/
def step (s : State) (t : Token) : Except Problem State :=
  match t.value with
  | .opening => .ok ⟨⟨t.loc, []⟩ :: s.frames, s.done⟩
  | .closing => s.close t.loc
  | .int value => .ok (s.add (.int value t.loc))
  | .char value => .ok (s.add (.char value t.loc))
  | .str value => .ok (s.add (.str value t.loc))
  | .ident name => .ok (s.add (.ident name t.loc))

/-- The trees, once there is nothing left to read. -/
def finish (s : State) : Except Problem (List Node) :=
  match s.frames with
  | [] => .ok s.done.reverse
  | frame :: _ => .error (Fault.openForm.at frame.start)

/-- Takes tokens up to the end. -/
def run (s : State) : List Token → Except Problem (List Node)
  | [] => s.finish
  | t :: rest =>
    match s.step t with
    | .ok s' => run s' rest
    | .error problem => .error problem

end State

end Reader

namespace Node

/-- The trees of a list of tokens. -/
def ofTokens (tokens : List Token) : Except Problem (List Node) :=
  Reader.State.empty.run tokens

/-- The trees of a source. -/
def parse (file : String) (source : Source) : Except Problem (List Node) :=
  match Token.lex file source with
  | .ok tokens => ofTokens tokens
  | .error problem => .error problem

end Node

end LittleLisp
