import LittleLisp.Fault
import LittleLisp.Server.Range

/-!
# Diagnostics

What an editor shows at a piece of a document that has a problem.
-/

namespace LittleLisp.Server

/-- A problem of a document. -/
structure Diagnostic where
  range : Range
  code : String
  message : String
deriving DecidableEq, Repr

/-- The code of a kind of fault. -/
def codeOf : Fault.Kind → String
  | .reading => "syntax"
  | .structural => "structure"
  | .arity => "arity"
  | .mismatch => "type"
  | .unknownSymbol => "unknown-symbol"
  | .lowering => "lowering"
  | .other => ""

namespace Diagnostic

/-- The range of a problem without a place: the first character. -/
def noPlace : Range :=
  ⟨⟨0, 0⟩, ⟨0, 1⟩⟩

/-- The diagnostic of a problem. -/
def ofProblem (p : Problem) : Diagnostic :=
  ⟨(p.loc.map Range.ofLocation).getD noPlace, codeOf p.fault.kind, p.message⟩

/-- A diagnostic in JSON. Every problem is an error. -/
def toJson (d : Diagnostic) : Json :=
  Json.ofFields [("range", some d.range.toJson), ("severity", some (.int 1)),
    ("code", Json.str? d.code), ("source", some (.str "lili")), ("message", some (.str d.message))]

end Diagnostic

/-- The diagnostics of one document, as they are sent to the editor. -/
structure Publication where
  uri : String
  version : Int := 0
  diagnostics : List Diagnostic
deriving DecidableEq, Repr

namespace Publication

/-- The method that sends diagnostics. -/
def method : String := "textDocument/publishDiagnostics"

/-- What is sent. A version of zero is left out. -/
def toJson (p : Publication) : Json :=
  Json.ofFields [("uri", some (.str p.uri)),
    ("diagnostics", some (.arr (p.diagnostics.map Diagnostic.toJson))),
    ("version", Json.int? p.version)]

end Publication

end LittleLisp.Server
