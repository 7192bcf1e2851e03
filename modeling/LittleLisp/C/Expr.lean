import LittleLisp.Builtin
import LittleLisp.Text.Literal

/-!
# C expressions and bodies

The part of C that functions are lowered to. Operators stand in parentheses of their own, so the
text of an expression never depends on precedence.
-/

namespace LittleLisp.C

/-- A C expression. -/
inductive Expr where
  | int (value : Int)
  | char (value : Char)
  | str (value : String)
  | ident (spelling : String)
  | binary (op : BinaryOp) (left right : Expr)
  | choice (condition yes no : Expr)
  | call (function : String) (args : List Expr)
deriving Repr

/-- The body of a C function. -/
inductive Body where
  /-- Returns one value. -/
  | value (result : Expr)
  /-- Returns the result of the first clause whose condition holds. What comes after the clauses is
  a call of the trap with the function's name, or nothing. -/
  | cascade (clauses : List (Expr × Expr)) (trap : Option String)
deriving Repr

/-- The runtime function that ends a program when no clause applies. -/
def trapName : String := "ll_no_match"

mutual

/-- A C expression, character by character. -/
def Expr.chars : Expr → List Char
  | .int value => (toString value).toList
  | .char value => Text.literal Text.singleQuote [value]
  | .str value => Text.literal Text.doubleQuote value.toList
  | .ident spelling => spelling.toList
  | .binary op left right =>
    "( ".toList ++ left.chars ++ ' ' :: op.symbol.toList ++ ' ' :: right.chars ++ " )".toList
  | .choice condition yes no =>
    "( ".toList ++ condition.chars ++ " ? ".toList ++ yes.chars ++ " : ".toList ++ no.chars ++
      " )".toList
  | .call function args => function.toList ++ '(' :: Expr.argChars args ++ [')']

/-- Arguments with a comma and a blank between each two. -/
def Expr.argChars : List Expr → List Char
  | [] => []
  | [e] => e.chars
  | e :: next :: rest => e.chars ++ ',' :: ' ' :: Expr.argChars (next :: rest)

end

/-- A C expression as text. -/
def Expr.text (e : Expr) : String :=
  String.ofList e.chars

/-- A clause of a cascade, character by character. -/
def clauseChars (clause : Expr × Expr) : List Char :=
  "if (".toList ++ clause.1.chars ++ ") return ".toList ++ clause.2.chars ++ "; ".toList

/-- The call that ends a cascade, character by character. -/
def trapChars : Option String → List Char
  | none => []
  | some function =>
    trapName.toList ++ '(' :: Text.literal Text.doubleQuote function.toList ++ "); ".toList

/-- A body, character by character. -/
def Body.chars : Body → List Char
  | .value result => "\x7b return ".toList ++ result.chars ++ " ; \x7d".toList
  | .cascade clauses trap =>
    "\x7b ".toList ++ clauses.flatMap clauseChars ++ trapChars trap ++ "\x7d".toList

/-- A body as text. -/
def Body.text (b : Body) : String :=
  String.ofList b.chars

/-- A C function: its type and name, its parameters with their types, and its body. -/
structure Function where
  ret : String
  name : String
  params : List (String × String)
  body : Body
deriving Repr

namespace Function

/-- The prototype of a function, without the semicolon. -/
def prototype (f : Function) : String :=
  f.ret ++ " " ++ f.name ++ "(" ++
    ",".intercalate (f.params.map fun (type, name) => type ++ " " ++ name) ++ ")"

/-- The definition of a function. -/
def text (f : Function) : String :=
  f.prototype ++ f.body.text

end Function

end LittleLisp.C
