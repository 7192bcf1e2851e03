import LittleLisp.Text.Literal
import LittleLisp.Tree

/-!
# Printed trees

A tree is written back as source on one line, with one blank between the members of a form.
-/

namespace LittleLisp.Node

mutual

/-- A tree as source, character by character. -/
def chars : Node → List Char
  | int value _ => (toString value).toList
  | char value _ => Text.literal Text.singleQuote [value]
  | str value _ => Text.literal Text.doubleQuote value.toList
  | ident name _ => name.toList
  | call members _ => '(' :: memberChars members ++ [')']
  | cond clauses _ => '(' :: condWord.toList ++ clauseChars clauses ++ [')']

/-- Trees with a blank between each two. -/
def memberChars : List Node → List Char
  | [] => []
  | [n] => n.chars
  | n :: m :: rest => n.chars ++ ' ' :: memberChars (m :: rest)

/-- Clauses with a blank before each. -/
def clauseChars : List (Node × Node) → List Char
  | [] => []
  | (condition, result) :: rest =>
    ' ' :: '(' :: condition.chars ++ ' ' :: result.chars ++ ')' :: clauseChars rest

end

/-- A tree as source. -/
def text (n : Node) : String :=
  String.ofList n.chars

end LittleLisp.Node
