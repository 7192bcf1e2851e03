import LittleLisp.Tree

/-!
# The parts of a definition as written

A form that is headed by `defun` and goes on with an identifier names a function, even if the rest
of it is not in order.
-/

namespace LittleLisp.Node

/-- An identifier where it was written. -/
structure Written where
  name : String
  loc : Location
deriving DecidableEq, Repr

/-- The tree as an identifier. -/
def ident? : Node → Option Written
  | ident name l => some ⟨name, l⟩
  | _ => none

/-- The name of the function that a form defines. -/
def defunName? : Node → Option Written
  | call (ident head _ :: ident name l :: _) _ =>
    if isNamed head defunWord then some ⟨name, l⟩ else none
  | _ => none

/-- The parameters of the function that a form defines. -/
def defunParams : Node → List Written
  | call (ident head _ :: ident _ _ :: call params _ :: _) _ =>
    if isNamed head defunWord then params.filterMap ident? else []
  | _ => []

/-- The declaration of a parameter of the function that a form defines. -/
def defunParam? (form : Node) (name : String) : Option Written :=
  form.defunParams.find? (·.name == name)

end LittleLisp.Node
