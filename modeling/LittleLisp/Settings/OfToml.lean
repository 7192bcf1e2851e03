import LittleLisp.Settings
import LittleLisp.Text.Case
import LittleLisp.Toml.Document

/-!
# Settings from TOML

A settings file gives some of the settings; the others keep their defaults. Names that belong to no
setting are ignored, and the case of names does not matter. A value of the wrong kind makes the file
unreadable.
-/

namespace LittleLisp

namespace TypeNames

/-- Type names with one field of a table applied. -/
def withField? (t : TypeNames) (name : String) (value : Toml.Value) : Option TypeNames :=
  let set (change : String → TypeNames) : Option TypeNames :=
    match value with
    | .str s => some (change s)
    | _ => none
  if isNamed name "string" then set fun s => { t with string := s }
  else if isNamed name "list" then set fun s => { t with list := s }
  else if isNamed name "any" then set fun s => { t with any := s }
  else some t

/-- Type names with all fields of a table applied. -/
def withFields? (t : TypeNames) : Toml.Table → Option TypeNames
  | [] => some t
  | (name, value) :: rest =>
    match t.withField? name value with
    | some t => withFields? t rest
    | none => none

end TypeNames

namespace Settings

/-- Settings with one field of a table applied. -/
def withField? (s : Settings) (name : String) (value : Toml.Value) : Option Settings :=
  if isNamed name "header" then
    match value with
    | .str header => some { s with header }
    | _ => none
  else if isNamed name "max_rounds" then
    match value with
    | .int maxRounds => some { s with maxRounds }
    | _ => none
  else if isNamed name "cond_fallback" then
    match value with
    | .str text => some { s with fallback := .ofText text }
    | _ => none
  else if isNamed name "mangle_identifiers" then
    match value with
    | .bool mangle => some { s with mangle }
    | _ => none
  else if isNamed name "types" then
    match value with
    | .table fields => (s.types.withFields? fields).map fun types => { s with types }
    | _ => none
  else some s

/-- Settings with all fields of a table applied. -/
def withFields? (s : Settings) : Toml.Table → Option Settings
  | [] => some s
  | (name, value) :: rest =>
    match s.withField? name value with
    | some s => withFields? s rest
    | none => none

/-- The settings of a text in TOML. -/
def ofToml? (text : String) : Option Settings :=
  match Toml.parse? text with
  | some table => ({} : Settings).withFields? table
  | none => none

/-- Why a settings file cannot be used. -/
inductive LoadError where
  /-- The file cannot be read as settings. -/
  | unreadable (path : String)
  /-- The settings of the file have a flaw. -/
  | rejected (path : String) (flaw : Flaw)
deriving DecidableEq, Repr

/-- What is said about a file that cannot be used. -/
def LoadError.message : LoadError → String
  | unreadable path => "parsing " ++ path
  | rejected path flaw => path ++ ": " ++ flaw.message

/-- The settings of a file with this path and text; there is no text if it cannot be read. -/
def load (path : String) (text : Option String) : Except LoadError Settings :=
  match text with
  | none => .error (.unreadable path)
  | some text =>
    match ofToml? text with
    | none => .error (.unreadable path)
    | some s =>
      match s.flaw? with
      | some flaw => .error (.rejected path flaw)
      | none => .ok s

end Settings

end LittleLisp
