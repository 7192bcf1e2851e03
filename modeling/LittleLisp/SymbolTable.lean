import LittleLisp.Definition

/-!
# The table of functions

The table holds one definition for each name, in the order in which the names came. Names are looked
up in lower case. A name that first came with a body is listed: it is a function of the program.
-/

namespace LittleLisp

/-- A place of the table. -/
structure SymbolTable.Entry where
  definition : Definition
  /-- The definition is a function of the program. -/
  listed : Bool
deriving Repr

/-- The definitions by name. -/
structure SymbolTable where
  entries : List SymbolTable.Entry
deriving Repr

namespace SymbolTable

/-- The name of an entry's definition. -/
def Entry.name (e : Entry) : String :=
  e.definition.name

/-- The table of the library alone. -/
def library : SymbolTable :=
  ⟨Builtin.library.map fun op => ⟨Definition.ofBuiltin op, false⟩⟩

/-- The definition of exactly this name. -/
def get? (t : SymbolTable) (name : String) : Option Definition :=
  (t.entries.find? (·.name == name)).map (·.definition)

/-- The definition of a name, in any case. -/
def lookup (t : SymbolTable) (name : String) : Option Definition :=
  t.get? (Text.toLower name)

/-- The functions of the program, in the order in which they came. -/
def functions (t : SymbolTable) : List Definition :=
  (t.entries.filter (·.listed)).map (·.definition)

/-- The definitions of the names of the library, in the library's order. -/
def builtins (t : SymbolTable) : List Definition :=
  Builtin.library.filterMap fun op => t.get? op.name

/-- Puts a definition in the place of its name, or at the end. -/
def insertEntry (d : Definition) : List Entry → List Entry
  | [] => [⟨d, !d.isBuiltin⟩]
  | e :: rest => if e.name == d.name then ⟨d, e.listed⟩ :: rest else e :: insertEntry d rest

/-- The table with a definition in place of any other of its name. -/
def insert (t : SymbolTable) (d : Definition) : SymbolTable :=
  ⟨insertEntry d t.entries⟩

/-- Both tables give the same types to the same names. -/
def sameTypes (t u : SymbolTable) : Bool :=
  t.entries.length == u.entries.length &&
    t.entries.all fun e =>
      match u.get? e.name with
      | some d => e.definition.sameTypes d
      | none => false

/-- The signature of a name, in any case. -/
def signature? (t : SymbolTable) (name : String) : Option String :=
  (t.lookup name).map Definition.signature

/-- The signatures of the functions of the program. -/
def signatures (t : SymbolTable) : List String :=
  t.functions.map Definition.signature

end SymbolTable

end LittleLisp
