import LittleLisp.Json.Shape
import LittleLisp.Location

/-!
# Ranges of a document

Editors count lines and characters from zero, and a range stops right after its last character.
-/

namespace LittleLisp.Server

/-- A place in a document. -/
structure Cursor where
  line : Int := 0
  character : Int := 0
deriving DecidableEq, Repr

/-- A piece of a document. -/
structure Range where
  start : Cursor := {}
  stop : Cursor := {}
deriving DecidableEq, Repr

namespace Range

/-- The piece of a document at a location. Without a place where it stops, it is as long as the
location says, and at least one character. -/
def ofLocation (l : Location) : Range :=
  let start : Cursor := ⟨l.line - 1, l.col - 1⟩
  match l.stop with
  | some p => ⟨start, ⟨p.line - 1, p.col - 1⟩⟩
  | none => ⟨start, ⟨start.line, start.character + max 1 l.len⟩⟩

/-- A cursor is in a range or right after it. -/
def contains (r : Range) (c : Cursor) : Bool :=
  decide (r.start.line ≤ c.line ∧ c.line ≤ r.stop.line) &&
    !decide (c.line = r.start.line ∧ c.character < r.start.character) &&
    !decide (c.line = r.stop.line ∧ r.stop.character < c.character)

end Range

/-- A cursor in JSON. -/
def Cursor.toJson (c : Cursor) : Json :=
  .obj [("line", .int c.line), ("character", .int c.character)]

/-- A range in JSON. -/
def Range.toJson (r : Range) : Json :=
  .obj [("start", r.start.toJson), ("end", r.stop.toJson)]

open Json.Shape

/-- The shape of a cursor. -/
def Cursor.shape : Json.Shape Cursor :=
  record [
    slot "line" Cursor.line (fun c line => { c with line }) whole,
    slot "character" Cursor.character (fun c character => { c with character }) whole]

/-- The shape of a range. -/
def Range.shape : Json.Shape Range :=
  record [
    slot "start" Range.start (fun r start => { r with start }) Cursor.shape,
    slot "end" Range.stop (fun r stop => { r with stop }) Cursor.shape]

end LittleLisp.Server
