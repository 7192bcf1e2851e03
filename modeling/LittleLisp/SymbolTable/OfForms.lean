import LittleLisp.SymbolTable

/-!
# From trees to the table

Every top-level tree has to be a definition: `(defun name (parameter ...) body)`. Nothing is known
about its types yet, so parameters start as `any` and the result as `nothing`. A later definition of
a name replaces an earlier one.
-/

namespace LittleLisp

namespace Definition

/-- The parameters after those in `known`, which must be identifiers that all differ. -/
def paramsOf (function : String) (known : List String) : List Node → Except Problem (List Param)
  | [] => .ok []
  | .ident name l :: rest =>
    if known.contains name then .error ((Fault.repeatedParameter name function).at l)
    else
      match paramsOf function (known ++ [name]) rest with
      | .ok params => .ok (⟨name, .any⟩ :: params)
      | .error problem => .error problem
  | other :: _ => .error ((Fault.badParameter other).at other.loc)

/-- The body of a definition: exactly one tree. -/
def bodyOf (function : String) (l : Location) : List Node → Except Problem Node
  | [] => .error ((Fault.noBody function).at l)
  | [body] => .ok body
  | _ :: extra :: _ => .error ((Fault.extraBody function).at extra.loc)

/-- What follows the name of a definition at `l`: the parameters and the body. -/
def ofParts (name : String) (l : Location) : List Node → Except Problem Definition
  | [] => .error ((Fault.noParameters name).at l)
  | .call args _ :: rest =>
    match paramsOf name [] args with
    | .error problem => .error problem
    | .ok params =>
      match bodyOf name l rest with
      | .error problem => .error problem
      | .ok body => .ok { name, params, ret := .nothing, body := some body, loc := some l }
  | other :: _ => .error ((Fault.badParameters other).at other.loc)

/-- What follows the head of a definition at `l`: the name and the rest. -/
def ofMembers (l : Location) : List Node → Except Problem Definition
  | [] => .error (Fault.noName.at l)
  | .ident written at_ :: rest =>
    let name := Text.toLower written
    if isReserved name then .error ((Fault.reservedName name).at at_)
    else ofParts name l rest
  | other :: _ => .error ((Fault.badName other).at other.loc)

/-- The definition of a top-level tree. -/
def ofForm (form : Node) : Except Problem Definition :=
  match form with
  | .call members l =>
    match members with
    | .ident name _ :: rest =>
      if isNamed name defunWord then ofMembers l rest
      else .error ((Fault.notDefun form).at l)
    | _ => .error ((Fault.notDefun form).at l)
  | other => .error ((Fault.notForm other).at other.loc)

end Definition

namespace SymbolTable

/-- Adds the definitions of top-level trees to a table. -/
def insertForms (t : SymbolTable) : List Node → Except Problem SymbolTable
  | [] => .ok t
  | form :: rest =>
    match Definition.ofForm form with
    | .ok d => insertForms (t.insert d) rest
    | .error problem => .error problem

/-- The table of a program. -/
def ofForms (forms : List Node) : Except Problem SymbolTable :=
  library.insertForms forms

end SymbolTable

end LittleLisp
