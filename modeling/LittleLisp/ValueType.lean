/-!
# Types of values

The types that are inferred for parameters and results. Two ways of putting observations together
share one rule: one type is neutral, equal types agree, and any other two clash. For the uses of a
parameter `any` is neutral and a clash gives `nothing`; for the results of a function `nothing` is
neutral and a clash gives `any`.
-/

namespace LittleLisp

/-- The type of a value. -/
inductive ValueType where
  | any
  | integer
  | char
  | string
  | list
  | nothing
deriving DecidableEq, Repr

namespace ValueType

/-- The name of a type. -/
def name : ValueType → String
  | any => "Any"
  | integer => "Integer"
  | char => "Char"
  | string => "String"
  | list => "List"
  | nothing => "Nothing"

/-- All types, from the widest to the empty one. -/
def all : List ValueType :=
  [any, integer, char, string, list, nothing]

/-- Puts two observations together: `neutral` gives way, equal ones agree, others `clash`. -/
def merge {α : Type} [DecidableEq α] (neutral clash a b : α) : α :=
  if a = neutral then b
  else if b = neutral then a
  else if a = b then a
  else clash

/-- What two uses of a parameter say together. -/
def sup (a b : ValueType) : ValueType :=
  merge any nothing a b

/-- What two results of a function say together. -/
def inf (a b : ValueType) : ValueType :=
  merge nothing any a b

/-- A value of type `actual` may be passed where `declared` is expected. -/
def isCompatible (declared actual : ValueType) : Bool :=
  declared == any || actual == any || declared == actual

theorem sup_comm (a b : ValueType) : sup a b = sup b a := by
  cases a <;> cases b <;> rfl

theorem sup_assoc (a b c : ValueType) : sup (sup a b) c = sup a (sup b c) := by
  cases a <;> cases b <;> cases c <;> rfl

theorem inf_comm (a b : ValueType) : inf a b = inf b a := by
  cases a <;> cases b <;> rfl

theorem inf_assoc (a b c : ValueType) : inf (inf a b) c = inf a (inf b c) := by
  cases a <;> cases b <;> cases c <;> rfl

end ValueType

end LittleLisp
