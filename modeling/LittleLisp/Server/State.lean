import LittleLisp.Server.Answer
import LittleLisp.Server.Request
import LittleLisp.Settings.Search

/-!
# The language server

The server keeps the documents that are open. Every new text of a document is compiled with the
settings that govern its place, and its diagnostics are published.
-/

namespace LittleLisp

/-- The state of the server. -/
structure Server where
  /-- The settings of documents that no settings file governs. -/
  settings : Settings := {}
  /-- The open documents by their addresses. -/
  documents : List (String × Server.Document) := []
  /-- The editor has announced the end of the session. -/
  finished : Bool := false
deriving Repr

namespace Server

/-- What a request leads to. -/
structure Reply where
  published : List Publication := []
  records : List Record := []
  result : Except Failure Result := .ok .nothing

/-! ## Documents -/

/-- The open document at an address. -/
def document? (s : Server) (uri : String) : Option Document :=
  s.documents.lookup uri

/-- Documents with one more, in place of any other at its address. -/
def putDocument (uri : String) (d : Document) :
    List (String × Document) → List (String × Document)
  | [] => [(uri, d)]
  | (other, e) :: rest =>
    if other == uri then (uri, d) :: rest else (other, e) :: putDocument uri d rest

/-- The server with a document. -/
def put (s : Server) (uri : String) (d : Document) : Server :=
  { s with documents := putDocument uri d s.documents }

/-- The server without the document at an address. -/
def erase (s : Server) (uri : String) : Server :=
  { s with documents := s.documents.filter fun e => e.1 != uri }

/-! ## Compiling -/

/-- The path of the file at an address. -/
def filePathOf (uri : String) : Except Failure String :=
  match Uri.parse uri with
  | .error flaw => .error (.badUri uri flaw)
  | .ok u => if u.scheme = Uri.fileScheme then .ok u.filePath else .error (.foreignScheme u.scheme)

/-- The settings for a document at a path: those of the file that governs it, if it is usable. -/
def settingsAt (tree : FileTree) (s : Server) (path : String) : Settings × List Record :=
  if Path.isAbsolute path then
    match Settings.find tree (Path.parentNames path) with
    | .error e =>
      (s.settings, [⟨.warn, "ignoring invalid config", [("path", path), ("error", e.message)]⟩])
    | .ok none => (s.settings, [])
    | .ok (some found) => (found.settings, [⟨.debug, "using config", [("path", found.path)]⟩])
  else (s.settings, [])

/-- The record of a compilation that ended. -/
def compiledRecord (path : String) (parsed : Bool) :
    Except Problem (List Node × CompiledUnit) → Record
  | .error problem =>
    ⟨.debug, if parsed then "compile failed" else "parse failed",
      [("path", path), ("error", problem.message)]⟩
  | .ok (_, u) =>
    ⟨.info, "file compiled", [("path", path), ("functions", toString u.functions.length),
      ("rounds", toString u.rounds)]⟩

/-- Compiles the text of the document at an address. -/
def compileAt (tree : FileTree) (s : Server) (uri text : String) :
    Logged Problem (List Node × CompiledUnit) :=
  let path := match filePathOf uri with
    | .ok path => path
    | .error _ => uri
  let (settings, found) := settingsAt tree s path
  let work := Document.compile (Path.base path) text settings
  let parsed := (Node.parse (Path.base path) (Source.ofString text)).isOk
  ⟨(if parsed then found else []) ++ work.records ++ [compiledRecord path parsed work.result],
    work.result⟩

/-- Gives an open document a new text, and a new version if there is one. -/
def update (tree : FileTree) (s : Server) (uri text : String) (version : Option Int) :
    Server × Reply :=
  match s.document? uri with
  | none => (s, { result := .error (.unknownDocument uri) })
  | some old =>
    let work := compileAt tree s uri text
    let d := { old with text, version := version.getD old.version }.settle work.result
    (s.put uri d, {
      published := [⟨uri, d.version, d.diagnostics⟩]
      records := work.records })

/-! ## Requests -/

/-- The record that a session begins. -/
def beginRecord (path : String) : Record :=
  ⟨.info, "initializing", [("root", Path.clean path)]⟩

/-- Begins a session. The address of the root, if there is one, has to be that of a file. -/
def beginSession (rootUri : String) : Reply :=
  if rootUri = "" then { result := .ok .abilities }
  else
    match filePathOf rootUri with
    | .ok path => { records := [beginRecord path], result := .ok .abilities }
    | .error e => { result := .error e }

/-- All functions of open documents that match a query. -/
def symbols (s : Server) (query : String) : List Symbol :=
  sortSymbols (s.documents.flatMap fun (uri, d) => d.symbols uri query)

/-- Handles a request. -/
def handle (tree : FileTree) (s : Server) : Request → Server × Reply
  | .begin rootUri => (s, beginSession rootUri)
  | .begun => (s, {})
  | .shutdown => ({ s with documents := [], finished := true }, {})
  | .exit =>
    (s, { records := if s.finished then [] else [⟨.warn, "exit without shutdown", []⟩] })
  | .didOpen uri version text => update tree (s.put uri { version }) uri text (some version)
  | .didChange uri version (some text) => update tree s uri text (some version)
  | .didChange _ _ none => (s, {})
  | .didSave uri (some text) => update tree s uri text none
  | .didSave _ none => (s, {})
  | .didClose uri => (s.erase uri, { published := [{ uri, diagnostics := [] }] })
  | .hover uri c =>
    (s, { result := .ok (((s.document? uri).map (·.hover c)).getD .nothing) })
  | .definition uri c =>
    (s, { result := .ok (((s.document? uri).map (·.definition uri c)).getD .nothing) })
  | .completion uri c =>
    (s, { result := .ok (.completions (((s.document? uri).map (·.completions c)).getD [])) })
  | .symbols query => (s, { result := .ok (.symbols (s.symbols query)) })

/-- Handles a call of a method. -/
def call (tree : FileTree) (s : Server) (method : String) (params : Option Json) : Server × Reply :=
  match Request.ofCall method params with
  | .ok request => s.handle tree request
  | .error e => (s, { result := .error e })

end Server

end LittleLisp
