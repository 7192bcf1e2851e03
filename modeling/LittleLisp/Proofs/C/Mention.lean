import LittleLisp.C.Expr
import LittleLisp.C.Name

/-!
# The names in a C body

A name stands in a C expression as a value or as the function of a call. The names of a body are
listed in the order of its text.
-/

namespace LittleLisp.C

/-- A name where it stands in an expression. -/
inductive Mention where
  /-- The name stands for a value. -/
  | value (spelling : String)
  /-- The name is that of the function in a call with so many arguments. -/
  | callee (spelling : String) (args : Nat)
deriving DecidableEq, Repr

/-- The name itself. -/
def Mention.spelling : Mention → String
  | value spelling => spelling
  | callee spelling _ => spelling

mutual

/-- The names in an expression. -/
def Expr.mentions : Expr → List Mention
  | .int _ | .char _ | .str _ => []
  | .ident spelling => [.value spelling]
  | .binary _ left right => left.mentions ++ right.mentions
  | .choice condition yes no => condition.mentions ++ (yes.mentions ++ no.mentions)
  | .call function args => .callee function args.length :: Expr.mentionsAll args

/-- The names in some expressions. -/
def Expr.mentionsAll : List Expr → List Mention
  | [] => []
  | e :: rest => e.mentions ++ Expr.mentionsAll rest

end

/-- The names in a clause. -/
def clauseMentions (clause : Expr × Expr) : List Mention :=
  clause.1.mentions ++ clause.2.mentions

/-- The names in a body, apart from the call of the trap that may end it. -/
def Body.mentions : Body → List Mention
  | .value result => result.mentions
  | .cascade clauses _ => clauses.flatMap clauseMentions

/-- A name that C text can hold: an identifier that is no word of C. -/
structure IsName (spelling : String) : Prop where
  identifier : isIdentifier spelling.toList = true
  not_keyword : spelling ∉ keywords

theorem isName_runtimeName (op : ListOp) : IsName op.runtimeName := by
  cases op <;> exact ⟨by decide, by decide⟩

/-- Operators on lists have names that are kept for the runtime. -/
theorem ne_runtimeName {name : String} (free : isRuntimeName name = false) (op : ListOp) :
    name ≠ op.runtimeName := by
  have kept : isRuntimeName op.runtimeName = true := by
    cases op <;> decide +kernel
  rintro rfl
  rw [kept] at free
  cases free

end LittleLisp.C
