import LittleLisp.Json.Token

/-!
# From tokens to JSON values

The reader keeps the lists and objects that are open, innermost first, and knows what may come next.
-/

namespace LittleLisp.Json

/-- A list or an object that is open, with its parts so far, last first. An object also knows the
name of the value that is being read. -/
inductive Frame where
  | arr (items : List Json)
  | obj (fields : List (String × Json)) (name : String)
deriving Repr

/-- What may come next. -/
inductive Expected where
  | value
  /-- A first item, or the end of the list. -/
  | firstItem
  /-- A first name, or the end of the object. -/
  | firstName (fields : List (String × Json))
  | name (fields : List (String × Json))
  | colon
  /-- A comma, or the end of the innermost list or object. -/
  | separator
  /-- Nothing: the value is complete. -/
  | nothing (value : Json)
deriving Repr

/-- The state of the reader. -/
structure Reading where
  frames : List Frame
  expected : Expected
deriving Repr

namespace Reading

/-- Nothing read yet. -/
def start : Reading :=
  ⟨[], .value⟩

/-- Takes a complete value. -/
def add (r : Reading) (v : Json) : Reading :=
  match r.frames with
  | [] => ⟨[], .nothing v⟩
  | .arr items :: outer => ⟨.arr (v :: items) :: outer, .separator⟩
  | .obj fields name :: outer => ⟨.obj ((name, v) :: fields) name :: outer, .separator⟩

/-- Takes the start of a value. -/
def value (r : Reading) : Token → Option Reading
  | .openArr => some ⟨.arr [] :: r.frames, .firstItem⟩
  | .openObj => some ⟨r.frames, .firstName []⟩
  | .str s => some (r.add (.str s))
  | .plain v => some (r.add v)
  | _ => none

/-- Takes the name of a field. -/
def name (r : Reading) (fields : List (String × Json)) : Token → Option Reading
  | .str s => some ⟨.obj fields s :: r.frames, .colon⟩
  | _ => none

/-- Takes what separates or ends the parts of the innermost list or object. -/
def separator (r : Reading) (t : Token) : Option Reading :=
  match t, r.frames with
  | .comma, .arr _ :: _ => some ⟨r.frames, .value⟩
  | .comma, .obj fields _ :: outer => some ⟨outer, .name fields⟩
  | .closeArr, .arr items :: outer => some (add ⟨outer, .value⟩ (.arr items.reverse))
  | .closeObj, .obj fields _ :: outer => some (add ⟨outer, .value⟩ (.obj fields.reverse))
  | _, _ => none

/-- Takes one token. -/
def step (r : Reading) (t : Token) : Option Reading :=
  match r.expected with
  | .value => r.value t
  | .firstItem =>
    match t with
    | .closeArr => r.separator t
    | _ => r.value t
  | .firstName fields =>
    match t with
    | .closeObj => some (r.add (.obj []))
    | _ => r.name fields t
  | .name fields => r.name fields t
  | .colon =>
    match t with
    | .colon => some ⟨r.frames, .value⟩
    | _ => none
  | .separator => r.separator t
  | .nothing _ => none

/-- Takes tokens up to the end. -/
def run (r : Reading) : List Token → Option Json
  | [] =>
    match r.expected with
    | .nothing v => some v
    | _ => none
  | t :: rest =>
    match r.step t with
    | some r => r.run rest
    | none => none

end Reading

/-- The value of a text in JSON. -/
def ofChars? (cs : List Char) : Option Json :=
  match tokens? [] cs.length cs with
  | some ts => Reading.start.run ts
  | none => none

/-- The value of a text in JSON. -/
def parse? (text : String) : Option Json :=
  ofChars? text.toList

end LittleLisp.Json
