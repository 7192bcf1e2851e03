/-!
# TOML values

Settings are kept in TOML. A document is a sequence of lines that name a table or give a value to a
key; a key may be a path of names.
-/

namespace LittleLisp.Toml

/-- A path of names. -/
abbrev Key := List String

/-- A value as it is written: tables in braces still hold paths. -/
inductive Written where
  | str (value : String)
  | int (value : Int)
  | bool (value : Bool)
  | float
  | dateTime
  | array (items : List Written)
  | inline (fields : List (Key × Written))
deriving Repr

/-- A line of a document. -/
inductive Item where
  /-- The values that follow belong to this table. -/
  | table (key : Key)
  /-- The values that follow belong to a new table at the end of this list. -/
  | tableList (key : Key)
  | assign (key : Key) (value : Written)
deriving Repr

/-- A value of a document. Of floating-point numbers, times and lists it only matters that they are
written correctly. -/
inductive Value where
  | str (value : String)
  | int (value : Int)
  | bool (value : Bool)
  | float
  | dateTime
  | array
  | table (fields : List (String × Value))
  | tableList (tables : List (List (String × Value)))
deriving Repr

/-- The fields of a table, in the order in which they came. -/
abbrev Table := List (String × Value)

end LittleLisp.Toml
