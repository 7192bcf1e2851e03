import LittleLisp.Server.Diagnostic
import LittleLisp.Tree.Defun
import LittleLisp.Unit

/-!
# Open documents

A document that is open in the editor has its text, the problem that the text has, if any, and the
trees and the table of the last text that compiled. Trees and table always come from the same text.
-/

namespace LittleLisp.Server

/-- What is known from the last text that compiled. -/
structure Compiled where
  forms : List Node
  table : SymbolTable
deriving Repr

/-- An open document. -/
structure Document where
  text : String := ""
  version : Int := 0
  diagnostics : List Diagnostic := []
  compiled : Option Compiled := none
deriving Repr

namespace Document

/-- Compiles a text: its trees, and the unit that they make. -/
def compile (file text : String) (s : Settings) : Logged Problem (List Node × CompiledUnit) :=
  match Node.parse file (Source.ofString text) with
  | .error problem => ⟨[], .error problem⟩
  | .ok forms =>
    let work := CompiledUnit.ofForms file forms s
    ⟨work.records, work.result.map (forms, ·)⟩

/-- The document after its text has been compiled. -/
def settle (d : Document) (result : Except Problem (List Node × CompiledUnit)) : Document :=
  match result with
  | .error problem => { d with diagnostics := [.ofProblem problem] }
  | .ok (forms, u) => { d with diagnostics := [], compiled := some ⟨forms, u.table⟩ }

/-- The trees of the last text that compiled. -/
def forms (d : Document) : List Node :=
  (d.compiled.map (·.forms)).getD []

end Document

/-- An identifier under the cursor, and the top-level form that it is in. -/
structure Mention where
  name : String
  loc : Location
  form : Node
deriving Repr

/-- The identifiers of a tree, where they are written. -/
def identsOf (n : Node) : List Node.Written :=
  n.walk.filterMap Node.ident?

/-- The identifier under the cursor in one top-level form. -/
def mentionIn? (c : Cursor) (form : Node) : Option Mention :=
  if (Range.ofLocation form.loc).contains c then
    ((identsOf form).filter fun w => (Range.ofLocation w.loc).contains c).getLast?.map
      fun w => ⟨w.name, w.loc, form⟩
  else none

/-- The identifier under the cursor. -/
def mentionAt? (forms : List Node) (c : Cursor) : Option Mention :=
  forms.findSome? (mentionIn? c)

/-- The inferred definition of the function that a form defines. -/
def Compiled.definitionOf? (k : Compiled) (form : Node) : Option Definition :=
  form.defunName?.bind fun w => k.table.lookup w.name

end LittleLisp.Server
