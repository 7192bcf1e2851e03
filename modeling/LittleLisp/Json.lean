/-!
# JSON values

What editors and the language server exchange. The fields of an object stay in the order in which
they were written, and a name may come more than once.
-/

namespace LittleLisp

/-- A JSON value. A number is an integer if it is written without a fraction and an exponent; of
other numbers only their text is kept. -/
inductive Json where
  | null
  | bool (value : Bool)
  | int (value : Int)
  | decimal (text : String)
  | str (value : String)
  | arr (items : List Json)
  | obj (fields : List (String × Json))
deriving Repr

namespace Json

/-- The last field of exactly this name. -/
def field? (j : Json) (name : String) : Option Json :=
  match j with
  | obj fields => fields.reverse.lookup name
  | _ => none

/-- The fields that are there. -/
def ofFields (fields : List (String × Option Json)) : Json :=
  obj (fields.filterMap fun (name, value) => value.map (name, ·))

/-- A text that is left out if it is empty. -/
def str? (s : String) : Option Json :=
  if s = "" then none else some (str s)

/-- A number that is left out if it is zero. -/
def int? (n : Int) : Option Json :=
  if n = 0 then none else some (int n)

end Json

end LittleLisp
