import LittleLisp.Json.Printer
import LittleLisp.Server.State

/-!
# Sessions

An editor and the server exchange messages in JSON. A message with an identifier is answered by one
with the same identifier; what is published on the way comes before the answer. An identifier may
be used again after its answer, except one that came with a method that there is not. Messages may
come as a batch, whose answers come together. After the editor has asked the server to exit, nothing
is answered any more.
-/

namespace LittleLisp.Server

/-- A message from the editor. -/
structure Message where
  id : Option Json := none
  method : String := ""
  params : Option Json := none
  /-- What is wrong with the message itself. -/
  failure : Option Failure := none

namespace Message

/-- The version of the protocol, which every message carries. -/
def version : String := "2.0"

/-- An identifier is a text or a number. -/
def isIdentifier : Json → Bool
  | .str _ | .int _ | .decimal _ => true
  | _ => false

/-- The fields that messages have. -/
def knownFields : List String :=
  ["jsonrpc", "id", "method", "params", "result", "error"]

/-- An error that a message carries. -/
structure Carried where
  code : Int := 0
  message : String := ""

/-- A code is an integer of 32 bits. -/
def carriedCode : Json.Shape Int := fun old j =>
  (Json.Shape.whole old j).filter fun n => decide (-2147483648 ≤ n) && decide (n ≤ 2147483647)

/-- The form of an error that a message carries. -/
def carried : Json.Shape (Option Carried) :=
  .optional {} (.record [
    Json.Shape.slot "code" Carried.code (fun e code => { e with code }) carriedCode,
    Json.Shape.slot "message" Carried.message (fun e message => { e with message })
      Json.Shape.text])

/-- A field that holds a text if it is there; `null` says nothing. -/
def textField (j : Json) (name : String) : Option String :=
  Json.Shape.text "" ((j.field? name).getD .null)

/-- The identifier is one, or there is none. -/
def identified (j : Json) : Bool :=
  match j.field? "id" with
  | none | some .null => true
  | some id => isIdentifier id

/-- What is wrong with the fields of a message, each by itself: the first of these that applies. -/
def fieldFailure? (j : Json) : Option Failure :=
  if (textField j "jsonrpc").isNone then some .badVersionKey
  else if (textField j "method").isNone then some .badMethod
  else if !identified j then some .badIdentifier
  else
    match Request.paramsOf (j.field? "params") with
    | .error e => some e
    | .ok _ =>
      if (carried none ((j.field? "error").getD .null)).isNone then some .badErrorValue else none

/-- The message is an answer: it has a result, or an error. -/
def isAnswer (j : Json) : Bool :=
  (j.field? "result").isSome ||
    match j.field? "error" with
    | none | some .null => false
    | some _ => true

/-- What is wrong with a message: with one of its fields, with its version, or with the fields that
it has. -/
def failureOf? (j : Json) (fields : List (String × Json)) : Option Failure :=
  let extra := (fields.map (·.1)).filter fun name => !knownFields.contains name
  let method := (textField j "method").getD ""
  match fieldFailure? j with
  | some e => some e
  | none =>
    if textField j "jsonrpc" ≠ some version then some .badVersion
    else if method ≠ "" ∧ isAnswer j then some .mixedFields
    else if !extra.isEmpty then some (.extraFields extra)
    else if method = "" then some .emptyMethod
    else none

/-- The message of a JSON value. -/
def ofJson (j : Json) : Message :=
  match j with
  | .obj fields =>
    { id := (j.field? "id").filter isIdentifier, method := (textField j "method").getD ""
      params := j.field? "params", failure := failureOf? j fields }
  | .null => { failure := some .badVersion }
  | _ => { failure := some .notObject }

end Message

/-- A failure in JSON. -/
def Failure.toJson (f : Failure) : Json :=
  Json.ofFields
    [("code", some (.int f.code)), ("message", some (.str f.message)), ("data", f.data?)]

/-- The answer to a request. -/
def answerJson (id : Json) : Except Failure Result → Json
  | .ok result =>
    .obj [("jsonrpc", .str Message.version), ("id", id), ("result", result.toJson)]
  | .error f => .obj [("jsonrpc", .str Message.version), ("id", id), ("error", f.toJson)]

/-- What is published, as a message. -/
def Publication.notice (p : Publication) : Json :=
  .obj [("jsonrpc", .str Message.version), ("method", .str Publication.method),
    ("params", p.toJson)]

/-- The answer to a message: none without an identifier, unless the message itself is wrong. -/
def answers (id : Option Json) (result : Except Failure Result) : List Json :=
  match id, result with
  | some id, _ => [answerJson id result]
  | none, .error f => if f.isOfMessage then [answerJson .null result] else []
  | none, .ok _ => []

/-- A session with an editor. -/
structure Session where
  server : Server
  /-- The editor has asked the server to exit. -/
  exited : Bool := false
  /-- The identifiers that cannot be used again, as texts. -/
  spent : List String := []

namespace Session

/-- What a message leads to: what is published, the answers, and the records, each in order. -/
structure Effect where
  published : List Publication := []
  answers : List Json := []
  records : List Record := []

/-- What messages lead to, one after another. -/
def Effect.append (a b : Effect) : Effect :=
  ⟨a.published ++ b.published, a.answers ++ b.answers, a.records ++ b.records⟩

/-- What is sent, in order, and the records. -/
structure Sent where
  messages : List Json := []
  records : List Record := []

/-- The identifier of a message, as text. -/
def key? (m : Message) : Option String :=
  m.id.map Json.text

/-- What is wrong with a message whose identifier may be spent: that it is comes first. -/
def failureOf? (spent : List String) (m : Message) : Option Failure :=
  match (key? m).filter spent.contains with
  | some id => some (.repeatedIdentifier id)
  | none => m.failure

/-- The identifier that a message spends for good: that of a call of a method that there is not. -/
def spends? (m : Message) : Except Failure Result → Option String
  | .error (.unknownMethod _) => key? m
  | _ => none

/-- Takes one message with what is wrong with it. -/
def take (tree : FileTree) (s : Session) (m : Message) (failure : Option Failure) :
    Session × Effect :=
  let (server, reply) : Server × Reply := match failure with
    | some e => (s.server, { result := .error e })
    | none => s.server.call tree m.method m.params
  let exits := failure.isNone && m.method == "exit"
  (⟨server, s.exited || exits, (spends? m reply.result).toList ++ s.spent⟩,
    ⟨reply.published, answers m.id reply.result, reply.records⟩)

/-- Takes messages in order. -/
def takeAll (tree : FileTree) (s : Session) : List (Message × Option Failure) → Session × Effect
  | [] => (s, {})
  | (m, failure) :: rest =>
    let (s, first) := s.take tree m failure
    let (s, others) := s.takeAll tree rest
    (s, first.append others)

/-- The identifiers that come more than once in a batch. -/
def repeated (batch : List Message) : List String :=
  let keys := batch.filterMap key?
  keys.filter fun key => decide (1 < keys.count key)

/-- The messages that an effect sends; the answers to a batch are one message. -/
def Effect.sent (e : Effect) (batch : Bool) : Sent :=
  let answers := if batch && !e.answers.isEmpty then [Json.arr e.answers] else e.answers
  ⟨e.published.map Publication.notice ++ answers, e.records⟩

/-- Takes what the editor sends: one message, or several in a batch. -/
def receive (tree : FileTree) (s : Session) (j : Json) : Session × Sent :=
  if s.exited then (s, {})
  else
    match j with
    | .arr [] => (s, { messages := [answerJson .null (.error .emptyBatch)] })
    | .arr items =>
      let batch := items.map Message.ofJson
      let spent := repeated batch ++ s.spent
      let (s, effect) := s.takeAll tree (batch.map fun m => (m, failureOf? spent m))
      (s, effect.sent true)
    | _ =>
      let m := Message.ofJson j
      let (s, effect) := s.take tree m (failureOf? s.spent m)
      (s, effect.sent false)

end Session

end LittleLisp.Server
