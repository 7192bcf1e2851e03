import LittleLisp.Location
import LittleLisp.Text.Quoted

/-!
# Tokens

A source is a sequence of tokens with blanks and comments between them: parentheses, integers,
characters, strings and identifiers.
-/

namespace LittleLisp

/-- What a token stands for. -/
inductive Token.Value where
  | opening
  | closing
  | int (value : Int)
  | char (value : Char)
  | str (value : String)
  | ident (name : String)
deriving DecidableEq, Repr

/-- A token and where it stands. -/
structure Token where
  value : Token.Value
  loc : Location
deriving DecidableEq, Repr

namespace Token.Value

/-- The name of a kind of token. -/
def kindName : Value → String
  | opening => "("
  | closing => ")"
  | int _ => "integer"
  | char _ => "char"
  | str _ => "string"
  | ident _ => "identifier"

/-- The name or the decoded contents of a token; parentheses and integers have none. -/
def contents : Value → String
  | char c => String.singleton c
  | str s => s
  | ident name => name
  | _ => ""

/-- A token as it is shown to people. -/
def text : Value → String
  | opening => "("
  | closing => ")"
  | int n => toString n
  | char c => String.ofList [Text.singleQuote, c, Text.singleQuote]
  | str s => Text.quoted s
  | ident name => name

end Token.Value

end LittleLisp
