import LittleLisp.Toml.Reader

/-!
# TOML documents

Puts the lines of a document together. A key may be given a value once. Tables that were only made
on the way to another one are pending: they may still be named once themselves, and a list in
brackets that a key leads through gives way to such a table.
-/

namespace LittleLisp.Toml

/-- The fields of a table with a field set; a new one comes last. -/
def setField (name : String) (value : Value) : Table → Table
  | [] => [(name, value)]
  | (n, v) :: rest => if n = name then (n, value) :: rest else (n, v) :: setField name value rest

/-- Changes the last element of a list. -/
def modifyLast? {α : Type} (f : α → Option α) : List α → Option (List α)
  | [] => none
  | [a] => (f a).map ([·])
  | a :: rest => (modifyLast? f rest).map (a :: ·)

/-- Changes the table at the end of a path. In a list of tables the last one counts; a table that is
missing is made. -/
def modifyAt? (f : Table → Option Table) : Key → Table → Option Table
  | [], t => f t
  | name :: path, t =>
    match t.lookup name with
    | none => (modifyAt? f path []).map fun sub => setField name (.table sub) t
    | some (.table sub) => (modifyAt? f path sub).map fun sub => setField name (.table sub) t
    | some (.tableList tables) =>
      (modifyLast? (modifyAt? f path) tables).map fun tables =>
        setField name (.tableList tables) t
    | some _ => none

/-- The tables on a path that are missing, each by its own path after `before`. -/
def missing (before : Key) : Key → Table → List Key
  | [], _ => []
  | name :: path, t =>
    let here := before ++ [name]
    match t.lookup name with
    | none => here :: missing here path []
    | some (.table sub) => missing here path sub
    | some (.tableList tables) => missing here path (tables.getLast?.getD [])
    | some _ => []

/-- A document in the making. -/
structure Draft where
  root : Table
  /-- Tables that may still be named once. -/
  pending : List Key
  /-- Keys whose last noted value is a list in brackets. -/
  lists : List Key

namespace Draft

/-- Nothing yet. -/
def empty : Draft :=
  ⟨[], [], []⟩

/-- Lets a table be named once. -/
def allow (d : Draft) (key : Key) : Draft :=
  { d with pending := key :: d.pending }

/-- The key under which the kind of a value is noted. An empty name stands for the table itself. -/
def noteKey (context : Key) (name : String) : Key :=
  if name ≠ "" then context ++ [name] else if context.isEmpty then [""] else context

/-- Notes whether the last value of a name in the table `context` is a list in brackets. -/
def note (d : Draft) (context : Key) (name : String) (isList : Bool) : Draft :=
  let key := noteKey context name
  { d with lists := if isList then key :: d.lists else d.lists.filter (· ≠ key) }

/-- Gives a value to a name in the table at `path`. A name that has a value already must be pending.
A list in brackets then gives way to the new value; any other name keeps what it has. -/
def put? (d : Draft) (path : Key) (name : String) (value : Value) : Option Draft :=
  let key := path ++ [name]
  let isList := d.lists.contains key
  let isPending := d.pending.contains key
  let change (t : Table) : Option Table :=
    match t.lookup name with
    | none => some (setField name value t)
    | some _ =>
      if ¬ isPending then none else if isList then some (setField name value t) else some t
  let isNew := (modifyAt? (fun t => if (t.lookup name).isSome then none else some t) path
    d.root).isSome
  (modifyAt? change path d.root).map fun root =>
    { d with root, pending := if isNew then d.pending else d.pending.filter (· ≠ key) }

/-- Names a table; the tables on the way to it are made and become pending. -/
def openTable? (d : Draft) (key : Key) : Option Draft :=
  match key.getLast? with
  | none => none
  | some name =>
    let path := key.dropLast
    let made := missing [] path d.root
    put? { d with pending := made ++ d.pending } path name (.table [])

/-- Names a list of tables and adds a table to it. -/
def extendList? (d : Draft) (key : Key) : Option Draft :=
  match key.getLast? with
  | none => none
  | some name =>
    let path := key.dropLast
    let made := missing [] path d.root
    let change (t : Table) : Option Table :=
      match t.lookup name with
      | none => some (setField name (.tableList [[]]) t)
      | some (.tableList tables) => some (setField name (.tableList (tables ++ [[]])) t)
      | some _ => none
    (modifyAt? change path d.root).map fun root => { d with root, pending := made ++ d.pending }

/-- Opens the tables that a path of names in a key leads through, one after the other. -/
def openPath? (d : Draft) (context : Key) : Key → Option Draft
  | [] => some d
  | name :: path =>
    let here := context ++ [name]
    match (d.allow here).openTable? here with
    | some d => openPath? d here path
    | none => none

/-- Gives a value to a path of names below a table, in place of any that was there. What the path
leads through has to be tables. -/
def insertAt? (path : Key) (name : String) (value : Value) (t : Table) : Option Table :=
  match path with
  | [] => some (setField name value t)
  | first :: path =>
    match t.lookup first with
    | none => (insertAt? path name value []).map fun sub => setField first (.table sub) t
    | some (.table sub) =>
      (insertAt? path name value sub).map fun sub => setField first (.table sub) t
    | some _ => none

/-- Gives a value to a name in the table at `path`, and notes whether it is a list in brackets. -/
def store? (d : Draft) (path : Key) (name : String) (isList : Bool) (value : Value) :
    Option Draft :=
  (d.put? path name value).map (·.note path name isList)

/-- The value is a list in brackets. -/
def isList : Written → Bool
  | .array _ => true
  | _ => false

mutual

/-- The value of a name in the table `context`. The tables in it take part in the document while
they are read: below the name itself, or as new ones of a list if it is `listed` there. -/
def value? (d : Draft) (context : Key) (name : String) (listed : Bool) :
    Written → Option (Draft × Value)
  | .array items => (items? (d.note context name true) context name items).map (·, .array)
  | .inline fields =>
    let here := context ++ [name]
    match if listed then (d.allow here).extendList? here else (d.allow here).openTable? here with
    | some d => (fields? d here [] fields).map fun (d, t) => (d, .table t)
    | none => none
  | .str value => some (d, .str value)
  | .int value => some (d, .int value)
  | .bool value => some (d, .bool value)
  | .float => some (d, .float)
  | .dateTime => some (d, .dateTime)

/-- Takes the items of a list in brackets, in order. -/
def items? (d : Draft) (context : Key) (name : String) : List Written → Option Draft
  | [] => some d
  | item :: rest =>
    match value? d context name true item with
    | some (d, _) => items? d context name rest
    | none => none

/-- Takes the fields of a table in braces at `here`, in order; `done` holds those before. -/
def fields? (d : Draft) (here : Key) (done : Table) :
    List (Key × Written) → Option (Draft × Table)
  | [] => some (d, done)
  | (key, written) :: rest =>
    let path := key.dropLast
    let name := key.getLastD ""
    match d.openPath? here path with
    | none => none
    | some d =>
      match value? d (here ++ path) name false written with
      | none => none
      | some (d, value) =>
        match d.store? (here ++ path) name (isList written) value,
          insertAt? path name value done with
        | some d, some done => fields? d here done rest
        | _, _ => none

end

/-- Gives a value to the name that a path leads to in the table `context`. -/
def assign? (d : Draft) (context path : Key) (name : String) (written : Written) : Option Draft :=
  match d.openPath? context path with
  | none => none
  | some d =>
    match value? d (context ++ path) name false written with
    | some (d, value) => d.store? (context ++ path) name (isList written) value
    | none => none

/-- Adds lines to a document; `context` is the table that was named last. -/
def addItems? (d : Draft) (context : Key) : List Item → Option Draft
  | [] => some d
  | .table key :: rest =>
    match d.openTable? key with
    | some d => addItems? (d.note key "" false) key rest
    | none => none
  | .tableList key :: rest =>
    match d.extendList? key with
    | some d => addItems? (d.note key "" false) key rest
    | none => none
  | .assign key written :: rest =>
    match d.assign? context key.dropLast (key.getLastD "") written with
    | some d => addItems? d context rest
    | none => none

end Draft

/-- The table of a document. -/
def parse? (s : String) : Option Table :=
  match itemsOf? s with
  | none => none
  | some items => (Draft.empty.addItems? [] items).map (·.root)

end LittleLisp.Toml
