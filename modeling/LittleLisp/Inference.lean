import LittleLisp.SymbolTable.OfForms

/-!
# Type inference

Inference goes in rounds. In each round every function is looked at again, with the types that the
table had before the round: a parameter takes what the calls that receive it say about it, and the
result takes what the result expressions say, where the function's own parameters already have their
new types. Rounds end when one changes nothing, or at a limit.
-/

namespace LittleLisp

namespace Inference

/-- What the arguments of one call say about the identifiers among them. -/
def usesOfArgs : List Node → List Param → List Param
  | .ident name _ :: args, p :: params => ⟨name, p.type⟩ :: usesOfArgs args params
  | _ :: args, _ :: params => usesOfArgs args params
  | _, _ => []

/-- What one tree says about identifiers: a call of a known function types its arguments. -/
def usesOfNode (t : SymbolTable) : Node → List Param
  | .call (.ident name _ :: args) _ =>
    match t.lookup name with
    | some callee => usesOfArgs args callee.params
    | none => []
  | _ => []

/-- What a body says about identifiers, in the order of the walk. -/
def uses (t : SymbolTable) (body : Node) : List Param :=
  body.walk.flatMap (usesOfNode t)

/-- The type that all uses of a name agree on. -/
def usedAs (us : List Param) (name : String) : ValueType :=
  us.foldl (fun type u => if u.name = name then type.sup u.type else type) .any

/-- The parameters of a function with the types of their uses in its body. -/
def refineParams (t : SymbolTable) (body : Node) (params : List Param) : List Param :=
  let us := uses t body
  params.map fun p => ⟨p.name, usedAs us p.name⟩

mutual

/-- The type of an expression in the body of `d`, with the results that the table has. -/
def derive (t : SymbolTable) (d : Definition) : Node → ValueType
  | .int _ _ => .integer
  | .char _ _ => .char
  | .str _ _ => .string
  | .ident name _ => if isLiteralName name then .any else (d.paramType? name).getD .any
  | .cond clauses _ => deriveClauses t d clauses
  | .call (.ident name _ :: args) _ =>
    match t.lookup name with
    | none => .any
    | some callee =>
      if callee.operator = some .choice then
        match deriveAll t d args with
        | [_, a, b] => a.inf b
        | _ => callee.ret
      else callee.ret
  | .call _ _ => .any

/-- The types of expressions. -/
def deriveAll (t : SymbolTable) (d : Definition) : List Node → List ValueType
  | [] => []
  | n :: rest => derive t d n :: deriveAll t d rest

/-- The type of the results of clauses. -/
def deriveClauses (t : SymbolTable) (d : Definition) : List (Node × Node) → ValueType
  | [] => .nothing
  | (_, result) :: rest => (derive t d result).inf (deriveClauses t d rest)

end

/-- A function with the types that its body gives it. -/
def refine (t : SymbolTable) (d : Definition) : Definition :=
  match d.body with
  | none => d
  | some body =>
    let refined := { d with params := refineParams t body d.params }
    { refined with ret := derive t refined body }

/-- One round: every function of the program is refined with the types of the table before it. -/
def round (t : SymbolTable) : SymbolTable :=
  ⟨t.entries.map fun e => if e.listed then { e with definition := refine t e.definition } else e⟩

/-- What inference ends with. -/
structure Result where
  table : SymbolTable
  rounds : Nat
  converged : Bool
deriving Repr

/-- Goes on for at most `left` more rounds after `done` rounds. -/
def run (t : SymbolTable) (done : Nat) : (left : Nat) → Result
  | 0 => ⟨t, done, false⟩
  | left + 1 =>
    let next := round t
    if next.sameTypes t then ⟨next, done + 1, true⟩
    else run next (done + 1) left

/-- The limit when none is given. -/
def defaultLimit : Nat := 20

/-- The number of rounds that a limit allows; only a positive one counts. -/
def limitOf (max : Int) : Nat :=
  if max ≤ 0 then defaultLimit else max.toNat

/-- Infers the types of a table in at most `max` rounds. -/
def infer (t : SymbolTable) (max : Int) : Result :=
  run t 0 (limitOf max)

end Inference

end LittleLisp
