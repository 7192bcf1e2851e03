import LittleLisp.ValueType

/-!
# Numbered types

Types by number, from `any` at zero to `nothing` at five. A number that belongs to no type still
merges and compares by the same rules.
-/

namespace LittleLisp

/-- The number of a type, or of none. -/
structure TypeCode where
  value : Int
deriving DecidableEq, Repr

namespace TypeCode

/-- The number of a type. -/
def ofType (t : ValueType) : TypeCode :=
  ⟨ValueType.all.idxOf t⟩

/-- The type of a number. -/
def type? (c : TypeCode) : Option ValueType :=
  ValueType.all.find? fun t => ofType t == c

/-- The name of a type by number. -/
def name (c : TypeCode) : String :=
  match c.type? with
  | some t => t.name
  | none => "VarType(?)"

/-- What two uses of a parameter say together. -/
def sup (a b : TypeCode) : TypeCode :=
  ValueType.merge (ofType .any) (ofType .nothing) a b

/-- What two results of a function say together. -/
def inf (a b : TypeCode) : TypeCode :=
  ValueType.merge (ofType .nothing) (ofType .any) a b

/-- A value of type `actual` may be passed where `declared` is expected. -/
def isCompatible (declared actual : TypeCode) : Bool :=
  declared == ofType .any || actual == ofType .any || declared == actual

theorem ofType_sup (a b : ValueType) : ofType (a.sup b) = (ofType a).sup (ofType b) := by
  cases a <;> cases b <;> rfl

theorem ofType_inf (a b : ValueType) : ofType (a.inf b) = (ofType a).inf (ofType b) := by
  cases a <;> cases b <;> rfl

theorem isCompatible_ofType (a b : ValueType) :
    (ofType a).isCompatible (ofType b) = a.isCompatible b := by
  cases a <;> cases b <;> rfl

end TypeCode

end LittleLisp
