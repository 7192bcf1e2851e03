import LittleLisp.ValueType

/-!
# Library operators

The operators that every program may use: the choice `if`, ten binary operators on integers, and
five operators on lists that the runtime provides.
-/

namespace LittleLisp

/-- The binary operators on integers. -/
inductive BinaryOp where
  | add | sub | mul | div | gt | lt | ge | le | eq | ne
deriving DecidableEq, Repr

/-- The operators on lists. -/
inductive ListOp where
  | car | cdr | null | atom | cons
deriving DecidableEq, Repr

/-- A library operator. -/
inductive Builtin where
  /-- The choice between two values. -/
  | choice
  | binary (op : BinaryOp)
  | list (op : ListOp)
  /-- An operator that is known by its number only and has no C form. -/
  | foreign (code : Int)
deriving DecidableEq, Repr

namespace BinaryOp

/-- The spelling of an operator in C. -/
def symbol : BinaryOp → String
  | add => "+"
  | sub => "-"
  | mul => "*"
  | div => "/"
  | gt => ">"
  | lt => "<"
  | ge => ">="
  | le => "<="
  | eq => "=="
  | ne => "!="

/-- The name of an operator in the Lisp. -/
def name : BinaryOp → String
  | eq => "="
  | op => op.symbol

end BinaryOp

namespace ListOp

/-- The name of an operator in the Lisp. -/
def name : ListOp → String
  | car => "car"
  | cdr => "cdr"
  | null => "null"
  | atom => "atom"
  | cons => "cons"

/-- The runtime function that does the work. -/
def runtimeName (op : ListOp) : String :=
  "ll_" ++ op.name

/-- How many arguments an operator takes. -/
def arity : ListOp → Nat
  | cons => 2
  | _ => 1

/-- The type of an operator's result. -/
def ret : ListOp → ValueType
  | null | atom => .integer
  | _ => .any

end ListOp

namespace Builtin

/-- The operators of the library, in the order in which they are listed. -/
def library : List Builtin :=
  [binary .add, binary .sub, binary .mul, binary .div, binary .gt, binary .lt, binary .ge,
   binary .le, binary .eq, binary .ne, list .car, list .cdr, list .null, list .atom, list .cons,
   choice]

/-- The name of an operator in the Lisp. -/
def name : Builtin → String
  | choice => "if"
  | binary op => op.name
  | list op => op.name
  | foreign _ => ""

/-- The types of an operator's parameters. -/
def paramTypes : Builtin → List ValueType
  | choice => [.integer, .any, .any]
  | binary _ => [.integer, .integer]
  | list op => List.replicate op.arity .any
  | foreign _ => []

/-- The type of an operator's result. -/
def ret : Builtin → ValueType
  | choice => .any
  | binary _ => .integer
  | list op => op.ret
  | foreign _ => .any

/-- The numbers of the operators: the choice comes first, then the binary operators, then the
operators on lists. -/
def numbered : List Builtin :=
  choice :: library.dropLast

/-- The number of an operator; the first one is number one. -/
def code : Builtin → Int
  | foreign n => n
  | op => (numbered.idxOf op : Int) + 1

/-- The operator of a number; zero is the number of no operator. -/
def ofCode? (n : Int) : Option Builtin :=
  if n = 0 then none
  else if 0 < n then some ((numbered[(n - 1).toNat]?).getD (foreign n))
  else some (foreign n)

end Builtin

end LittleLisp
