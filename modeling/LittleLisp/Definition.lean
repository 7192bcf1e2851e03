import LittleLisp.Builtin
import LittleLisp.Fault

/-!
# Function definitions

A definition is a function of the program, with its body, or an operator of the library, which has
none and whose types are fixed.
-/

namespace LittleLisp

/-- A parameter and its type. -/
structure Param where
  name : String
  type : ValueType
deriving DecidableEq, Repr

/-- A function of the program or an operator of the library. -/
structure Definition where
  name : String
  params : List Param
  ret : ValueType
  body : Option Node := none
  operator : Option Builtin := none
  loc : Option Location := none
deriving Repr

namespace Definition

/-- A definition without a body belongs to the library. -/
def isBuiltin (d : Definition) : Bool :=
  d.body.isNone

/-- The type of the parameter of a name. -/
def paramType? (d : Definition) (name : String) : Option ValueType :=
  (d.params.find? (·.name == name)).map (·.type)

/-- Two definitions have the same parameters and results. -/
def sameTypes (d e : Definition) : Bool :=
  d.ret == e.ret && d.params == e.params

/-- A signature's parameters: `a Type, b Type`. -/
def paramsText (d : Definition) : String :=
  ", ".intercalate (d.params.map fun p => p.name ++ " " ++ p.type.name)

/-- A function's signature: `name(a Type, b Type) Type`. -/
def signature (d : Definition) : String :=
  d.name ++ "(" ++ d.paramsText ++ ") " ++ d.ret.name

/-- The definition of a library operator; its parameters are called `op1`, `op2`, and so on. -/
def ofBuiltin (op : Builtin) : Definition where
  name := op.name
  params := op.paramTypes.mapIdx fun i t => ⟨"op" ++ toString (i + 1), t⟩
  ret := op.ret
  operator := some op

end Definition

/-- A name that belongs to the language: of a library operator or of a form. -/
def isReserved (name : String) : Bool :=
  name == defunWord || name == condWord || Builtin.library.any (·.name == name)

end LittleLisp
