import LittleLisp.Location
import LittleLisp.Text.Case

/-!
# Trees

A program is a list of trees. A form in parentheses is a call; one that is headed by `cond` is kept
as a list of clauses, each with a condition and a result.
-/

namespace LittleLisp

/-- A tree of the program, with the place that each of its nodes was read from. -/
inductive Node where
  | call (members : List Node) (loc : Location)
  | int (value : Int) (loc : Location)
  | char (value : Char) (loc : Location)
  | str (value : String) (loc : Location)
  | ident (name : String) (loc : Location)
  | cond (clauses : List (Node × Node)) (loc : Location)
deriving Repr

/-- The word that heads a conditional form. -/
def condWord : String := "cond"

/-- The word that heads a function definition. -/
def defunWord : String := "defun"

/-- The identifier that stands for the empty list. -/
def nilWord : String := "nil"

/-- The identifier that stands for truth. -/
def trueWord : String := "T"

/-- Identifiers that stand for themselves. -/
def isLiteralName (name : String) : Bool :=
  name == nilWord || name == trueWord

/-- A name spells a word of the language, in any case. -/
def isNamed (name word : String) : Bool :=
  Text.sameFolded name word

namespace Node

/-- Where a tree was read from. -/
def loc : Node → Location
  | call _ l | int _ l | char _ l | str _ l | ident _ l | cond _ l => l

/-- The identifier that heads a form, if its first member is one. -/
def head? : List Node → Option (String × Location)
  | .ident name l :: _ => some (name, l)
  | _ => none

/-- The tree is the identifier `T`, which catches every case of a conditional. -/
def isCatchAll : Node → Bool
  | ident name _ => name == trueWord
  | _ => false

mutual

/-- A tree and all trees inside it, each before its parts. -/
def walk : Node → List Node
  | call members l => call members l :: walkAll members
  | cond clauses l => cond clauses l :: walkClauses clauses
  | int v l => [int v l]
  | char v l => [char v l]
  | str v l => [str v l]
  | ident n l => [ident n l]

/-- The trees of a list of trees, in order. -/
def walkAll : List Node → List Node
  | [] => []
  | n :: rest => n.walk ++ walkAll rest

/-- The trees of a list of clauses, each condition before its result. -/
def walkClauses : List (Node × Node) → List Node
  | [] => []
  | (condition, result) :: rest => condition.walk ++ (result.walk ++ walkClauses rest)

end

@[simp] theorem walkAll_eq (ns : List Node) : walkAll ns = ns.flatMap walk := by
  induction ns with
  | nil => simp [walkAll]
  | cons n rest ih => simp [walkAll, ih]

end Node

end LittleLisp
