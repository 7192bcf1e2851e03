import LittleLisp.Proofs.C.Term
import LittleLisp.Tree

/-!
# What C bodies mean

Expressions mean something once operators, functions, names, constants and literals do, and once it
is settled which values count as true. An `Interpretation` gives all of that, in any monad, so that
calls may have effects, fail or not end. Which calls are calls of the runtime is read off their C
names (`runtimeFunctions`). Statements are executed in order up to one that returns, up to the trap,
or to the end of the block.
-/

universe v w

namespace LittleLisp.C

/-- A meaning for everything that expressions are made of. -/
structure Interpretation (m : Type v → Type w) (V : Type v) where
  operator : BinaryOp → V → V → m V
  /-- The functions of the runtime that are operators on lists. -/
  runtime : ListOp → List V → m V
  /-- The functions of the program, by C name. -/
  function : String → List V → m V
  /-- Names that are values, by C spelling. -/
  name : String → V
  int : Int → V
  /-- Character and string literals, as they are written. -/
  literal : List Char → V
  /-- What an expression gives that has no meaning of its own. -/
  stuck : m V
  truth : V → Bool
  truth_int : ∀ n, truth (int n) = true ↔ n ≠ 0
  truth_true : truth (name trueWord) = true

/-- How the execution of a body ends. -/
inductive Outcome (V : Type v) where
  | returned (value : V)
  /-- The runtime's trap was called. -/
  | trapped (args : List V)
  /-- The end of the body was reached. -/
  | fellOff

/-- Computes values from left to right. -/
def inOrder {m : Type v → Type w} [Monad m] {V : Type v} : List (m V) → m (List V)
  | [] => pure []
  | first :: rest => do
    let value ← first
    let values ← inOrder rest
    pure (value :: values)

/-- What a function of the runtime does. -/
inductive RuntimeFunction where
  | operator (op : ListOp)
  /-- Ends the program. -/
  | trap

/-- The functions of the runtime by their names in C. -/
def runtimeFunctions : List (String × RuntimeFunction) :=
  [("ll_car", .operator .car), ("ll_cdr", .operator .cdr), ("ll_null", .operator .null),
   ("ll_atom", .operator .atom), ("ll_cons", .operator .cons), ("ll_no_match", .trap)]

/-- What lowering writes for an operator on lists is that operator of the runtime. -/
theorem lookup_runtimeName (op : ListOp) :
    runtimeFunctions.lookup op.runtimeName = some (.operator op) := by
  cases op <;> rfl

theorem lookup_trapName : runtimeFunctions.lookup trapName = some .trap := rfl

/-- Every function of the runtime has a name that is kept for it. -/
theorem lookup_runtimeFunctions_of_free {function : String} (free : isRuntimeName function = false) :
    runtimeFunctions.lookup function = none := by
  have kept : ∀ f ∈ runtimeFunctions, isRuntimeName f.1 = true := by decide +kernel
  rw [List.lookup_eq_none_iff]
  intro f hf
  rw [bne_iff_ne]
  rintro rfl
  exact Bool.false_ne_true (free.symm.trans (kept f hf))

section

variable {m : Type v → Type w} {V : Type v} (I : Interpretation m V)

/-- The function of a C name: the runtime's, or one of the program. -/
def Interpretation.callee (function : String) : List V → m V :=
  match runtimeFunctions.lookup function with
  | some (.operator op) => I.runtime op
  | some .trap | none => I.function function

theorem Interpretation.callee_runtimeName (op : ListOp) :
    I.callee op.runtimeName = I.runtime op := by
  rw [callee, lookup_runtimeName]

/-- A name that does not belong to the runtime is one of the program. -/
theorem Interpretation.callee_function {function : String}
    (free : isRuntimeName function = false) : I.callee function = I.function function := by
  rw [callee, lookup_runtimeFunctions_of_free free]

variable [Monad m]

mutual

/-- The value of an expression. -/
def Term.eval : Term → m V
  | .number value => pure (I.int value)
  | .literal text => pure (I.literal text)
  | .name spelling => pure (I.name spelling)
  | .binary op left right => do
    let a ← left.eval
    let b ← right.eval
    I.operator op a b
  | .choice condition yes no => do
    let c ← condition.eval
    if I.truth c then yes.eval else no.eval
  | .call function args => do
    let values ← inOrder (Term.evals args)
    I.callee function values

/-- The values of expressions, each by itself. -/
def Term.evals : List Term → List (m V)
  | [] => []
  | e :: rest => e.eval :: Term.evals rest

end

/-- Executes the statements of a body. -/
def Block.run : Block → m (Outcome V)
  | [] => pure .fellOff
  | .ret e :: _ => do
    let value ← e.eval I
    pure (.returned value)
  | .guarded condition e :: rest => do
    let c ← condition.eval I
    if I.truth c then do
      let value ← e.eval I
      pure (.returned value)
    else Block.run rest
  | .evaluate (.call function args) :: rest => do
    let values ← inOrder (Term.evals I args)
    match runtimeFunctions.lookup function with
    | some .trap => pure (.trapped values)
    | some (.operator _) | none => do
      let _ ← I.callee function values
      Block.run rest
  | .evaluate e :: rest => do
    let _ ← e.eval I
    Block.run rest

end

end LittleLisp.C
