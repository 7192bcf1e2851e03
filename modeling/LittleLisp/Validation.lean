import LittleLisp.SymbolTable

/-!
# Validation

Every call in every function is checked against the types of the table, and every name has to stand
for something. The first problem ends the check.
-/

namespace LittleLisp

namespace Validation

/-- The function that a form calls. -/
def callee (t : SymbolTable) (members : List Node) (l : Location) :
    Except Problem Definition :=
  match Node.head? members with
  | none => .error ((Fault.notCall (.call members l)).at l)
  | some (name, at_) =>
    match t.lookup name with
    | some d => .ok d
    | none => .error ((Fault.unknownSymbol name).at at_)

/-- The type of an argument as far as it shows without looking into it. -/
def shallowType (t : SymbolTable) : Node → Except Problem ValueType
  | .int _ _ => .ok .integer
  | .char _ _ => .ok .char
  | .str _ _ => .ok .string
  | .call members l =>
    match callee t members l with
    | .ok d => .ok d.ret
    | .error problem => .error problem
  | _ => .ok .any

/-- The types of arguments; the first that cannot be told decides the problem. -/
def shallowTypes (t : SymbolTable) : List Node → Except Problem (List ValueType)
  | [] => .ok []
  | n :: rest =>
    match shallowType t n with
    | .error problem => .error problem
    | .ok type =>
      match shallowTypes t rest with
      | .error problem => .error problem
      | .ok types => .ok (type :: types)

/-- Checks arguments against parameters, from position `i` on. -/
def checkTypes (function : String) (i : Nat) :
    List Param → List Node → List ValueType → Except Problem Unit
  | p :: params, arg :: args, actual :: types =>
    if p.type.isCompatible actual then checkTypes function (i + 1) params args types
    else .error ((Fault.mismatch function p.name i p.type actual).at arg.loc)
  | _, _, _ => .ok ()

/-- Checks one call, but not what is inside its arguments. -/
def checkCall (t : SymbolTable) (members : List Node) (l : Location) : Except Problem Unit :=
  match callee t members l with
  | .error problem => .error problem
  | .ok d =>
    let args := members.tail
    match shallowTypes t args with
    | .error problem => .error problem
    | .ok types =>
      if types.length = d.params.length then checkTypes d.name 1 d.params args types
      else .error ((Fault.arity d.name d.params.length types.length).at l)

mutual

/-- Checks an expression in the body of `d`. -/
def checkNode (t : SymbolTable) (d : Definition) : Node → Except Problem Unit
  | .call members l =>
    match checkCall t members l with
    | .error problem => .error problem
    | .ok () => checkArgs t d members
  | .cond clauses _ => checkClauses t d clauses
  | .ident name l =>
    if isLiteralName name || (d.paramType? name).isSome then .ok ()
    else .error ((Fault.unknownSymbol name).at l)
  | .int _ _ | .char _ _ | .str _ _ => .ok ()

/-- Checks the members of a call after its head. -/
def checkArgs (t : SymbolTable) (d : Definition) : List Node → Except Problem Unit
  | [] => .ok ()
  | _ :: args => checkAll t d args

/-- Checks expressions in order. -/
def checkAll (t : SymbolTable) (d : Definition) : List Node → Except Problem Unit
  | [] => .ok ()
  | n :: rest =>
    match checkNode t d n with
    | .error problem => .error problem
    | .ok () => checkAll t d rest

/-- Checks clauses in order, each condition before its result. -/
def checkClauses (t : SymbolTable) (d : Definition) : List (Node × Node) → Except Problem Unit
  | [] => .ok ()
  | (condition, result) :: rest =>
    match checkNode t d condition with
    | .error problem => .error problem
    | .ok () =>
      match checkNode t d result with
      | .error problem => .error problem
      | .ok () => checkClauses t d rest

end

/-- Checks a function: the uses of its parameters agree, and its body is sound. -/
def checkFunction (t : SymbolTable) (d : Definition) : Except Problem Unit :=
  match d.params.find? (·.type == .nothing) with
  | some p => .error ⟨.conflict d.name p.name, d.loc⟩
  | none =>
    match d.body with
    | some body => checkNode t d body
    | none => .error ⟨.bodiless d.name, none⟩

/-- Checks functions in order. -/
def checkFunctions (t : SymbolTable) : List Definition → Except Problem Unit
  | [] => .ok ()
  | d :: rest =>
    match checkFunction t d with
    | .error problem => .error problem
    | .ok () => checkFunctions t rest

/-- Checks every function of the program. -/
def validate (t : SymbolTable) : Except Problem Unit :=
  checkFunctions t t.functions

end Validation

end LittleLisp
