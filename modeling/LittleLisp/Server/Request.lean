import LittleLisp.Server.Range
import LittleLisp.Uri

/-!
# Requests

What an editor asks for: a method with parameters in JSON. Parameters have to be an object of the
method's shape.
-/

namespace LittleLisp.Server

/-- What an editor asks for. -/
inductive Request where
  /-- Begins a session; the address of the root may be empty. -/
  | begin (rootUri : String)
  /-- Says that the session has begun. -/
  | begun
  | shutdown
  | exit
  | didOpen (uri : String) (version : Int) (text : String)
  /-- Gives the new text, if there was any change. -/
  | didChange (uri : String) (version : Int) (text : Option String)
  /-- Gives the saved text, if the editor sends it. -/
  | didSave (uri : String) (text : Option String)
  | didClose (uri : String)
  | hover (uri : String) (cursor : Cursor)
  | definition (uri : String) (cursor : Cursor)
  | completion (uri : String) (cursor : Cursor)
  | symbols (query : String)
deriving DecidableEq, Repr

/-- How a request fails. -/
inductive Failure where
  /-- A batch holds no message. -/
  | emptyBatch
  /-- A message is not an object. -/
  | notObject
  /-- The name of a method is not a text. -/
  | badMethod
  /-- The version of the protocol is not a text. -/
  | badVersionKey
  /-- The error that a message carries has not the form of one. -/
  | badErrorValue
  /-- The identifier of a request is neither a text nor a number. -/
  | badIdentifier
  /-- The identifier of a request, as text, cannot be used again. -/
  | repeatedIdentifier (id : String)
  /-- A message is a request and an answer at once. -/
  | mixedFields
  /-- A message has fields that no request has. -/
  | extraFields (names : List String)
  /-- A message is of another version of the protocol. -/
  | badVersion
  | emptyMethod
  /-- The parameters are neither a list nor an object. -/
  | scalarParams
  | unknownMethod (method : String)
  | missingParams
  | invalidParams
  | badUri (text : String) (flaw : Uri.Flaw)
  /-- An address is not that of a file. -/
  | foreignScheme (scheme : String)
  | unknownDocument (uri : String)
deriving DecidableEq, Repr

namespace Failure

/-- The number of a failure. -/
def code : Failure → Int
  | notObject | badMethod | badVersionKey | badErrorValue => -32700
  | emptyBatch | badIdentifier | repeatedIdentifier _ | mixedFields | extraFields _ | badVersion
  | emptyMethod | scalarParams => -32600
  | unknownMethod _ => -32601
  | missingParams | invalidParams => -32602
  | badUri _ _ | foreignScheme _ | unknownDocument _ => -32098

/-- What is said about a failure. -/
def message : Failure → String
  | emptyBatch => "empty request batch"
  | notObject => "request is not a JSON object"
  | badMethod => "invalid method name"
  | badVersionKey => "invalid version key"
  | badErrorValue => "invalid error value"
  | badIdentifier => "invalid request ID"
  | repeatedIdentifier _ => "duplicate request ID"
  | mixedFields => "mixed request and reply fields"
  | extraFields _ => "extra fields in request"
  | badVersion => "invalid version marker"
  | emptyMethod => "empty method name"
  | scalarParams => "parameters must be array or object"
  | unknownMethod _ => "method not found"
  | missingParams => "missing parameters"
  | invalidParams => "invalid parameters"
  | badUri text flaw => "parse " ++ Text.quoted text ++ ": " ++ flaw.message
  | foreignScheme scheme => "only file URIs are supported, got " ++ scheme
  | unknownDocument uri => "document not found: " ++ uri

/-- More about a failure, in JSON. -/
def data? : Failure → Option Json
  | unknownMethod method => some (.str method)
  | repeatedIdentifier id => some (.str id)
  | extraFields names => some (.arr (names.map .str))
  | _ => none

/-- The failure is one of a message, not of a method: it is answered in any case. -/
def isOfMessage (f : Failure) : Bool :=
  f.code == -32700 || f.code == -32600

end Failure

namespace Request

/-- One change: the whole new text. The range that it replaces is of no use. -/
structure Change where
  text : String := ""
  range : Option Range := none
  rangeLength : Int := 0

/-- The parameters of all methods: each method uses some of them. -/
structure Params where
  uri : String := ""
  language : String := ""
  version : Int := 0
  documentText : String := ""
  changes : Json.Shape.Row Change := {}
  savedText : Option String := none
  cursor : Cursor := {}
  query : String := ""
  rootUri : String := ""
  processId : Int := 0

open Json.Shape

/-- The address of a document. -/
def uriSlot : Slot Params :=
  slot "uri" Params.uri (fun p uri => { p with uri }) text

/-- The version of a document. -/
def versionSlot : Slot Params :=
  slot "version" Params.version (fun p version => { p with version }) whole

/-- The document that a request is about. -/
def documentSlot (slots : List (Slot Params)) : Slot Params :=
  ⟨"textDocument", record slots⟩

/-- The shape of a change. -/
def Change.shape : Json.Shape Change :=
  record [
    slot "range" Change.range (fun c range => { c with range }) (optional {} Range.shape),
    slot "rangeLength" Change.rangeLength (fun c rangeLength => { c with rangeLength }) whole,
    slot "text" Change.text (fun c text => { c with text }) Json.Shape.text]

/-- The changes of a document. -/
def changesSlot : Slot Params :=
  slot "contentChanges" Params.changes (fun p changes => { p with changes })
    (list {} Change.shape)

/-- The slots of a request about a place in a document. -/
def placeSlots : List (Slot Params) :=
  [documentSlot [uriSlot],
    slot "position" Params.cursor (fun p cursor => { p with cursor }) Cursor.shape]

/-- A method: the slots of its parameters, whether it can do without any, and its request. -/
structure Method where
  slots : List (Slot Params) := []
  optional : Bool := false
  request : Params → Request

/-- A method without parameters; what is sent with it does not matter. -/
inductive Kind where
  | plain (request : Request)
  | withParams (method : Method)

/-- The methods by name. -/
def methods : List (String × Kind) := [
  ("initialize", .withParams {
    slots := [
      slot "processId" Params.processId (fun p processId => { p with processId }) whole,
      slot "rootUri" Params.rootUri (fun p rootUri => { p with rootUri }) text]
    request := fun p => .begin p.rootUri }),
  ("initialized", .plain .begun),
  ("shutdown", .plain .shutdown),
  ("exit", .plain .exit),
  ("textDocument/didOpen", .withParams {
    slots := [documentSlot [uriSlot,
      slot "languageId" Params.language (fun p language => { p with language }) text, versionSlot,
      slot "text" Params.documentText (fun p documentText => { p with documentText }) text]]
    request := fun p => .didOpen p.uri p.version p.documentText }),
  ("textDocument/didChange", .withParams {
    slots := [documentSlot [uriSlot, versionSlot], changesSlot]
    request := fun p => .didChange p.uri p.version (p.changes.items.getLast?.map Change.text) }),
  ("textDocument/didSave", .withParams {
    slots := [documentSlot [uriSlot],
      slot "text" Params.savedText (fun p savedText => { p with savedText })
        (Json.Shape.optional "" text)]
    request := fun p => .didSave p.uri p.savedText }),
  ("textDocument/didClose", .withParams {
    slots := [documentSlot [uriSlot]]
    request := fun p => .didClose p.uri }),
  ("textDocument/hover", .withParams {
    slots := placeSlots
    request := fun p => .hover p.uri p.cursor }),
  ("textDocument/definition", .withParams {
    slots := placeSlots
    request := fun p => .definition p.uri p.cursor }),
  ("textDocument/completion", .withParams {
    slots := placeSlots
    request := fun p => .completion p.uri p.cursor }),
  ("workspace/symbol", .withParams {
    slots := [slot "query" Params.query (fun p query => { p with query }) text]
    optional := true
    request := fun p => .symbols p.query })]

/-- The request of a method with parameters. -/
def Method.ofParams (m : Method) (params : Option Json) : Except Failure Request :=
  match params with
  | none => if m.optional then .ok (m.request {}) else .error .missingParams
  | some j =>
    match record m.slots {} j with
    | some p => .ok (m.request p)
    | none => .error .invalidParams

/-- The parameters of a call: `null` is the same as none, and they are not scalar. -/
def paramsOf : Option Json → Except Failure (Option Json)
  | none | some .null => .ok none
  | some (.arr items) => .ok (some (.arr items))
  | some (.obj fields) => .ok (some (.obj fields))
  | some _ => .error .scalarParams

/-- The request of a call. -/
def ofCall (method : String) (params : Option Json) : Except Failure Request :=
  match paramsOf params with
  | .error e => .error e
  | .ok params =>
    match methods.lookup method with
    | none => .error (.unknownMethod method)
    | some (.plain request) => .ok request
    | some (.withParams m) => m.ofParams params

end Request

end LittleLisp.Server
