import LittleLisp.Json
import LittleLisp.Tree

/-!
# Reading values of a shape

A shape says how a value takes what a JSON value says: the result is the changed value, or nothing
if the JSON value has the wrong form. `null` and missing fields say nothing, and fields that a shape
does not know are ignored. The case of a field's name does not matter unless the exact name is known
as well.
-/

namespace LittleLisp.Json

/-- How values of a type take what a JSON value says. -/
abbrev Shape (α : Type) := α → Json → Option α

namespace Shape

/-- A text. -/
def text : Shape String
  | _, .str s => some s
  | old, .null => some old
  | _, _ => none

/-- The least and the greatest integer of 64 bits. -/
def fits (n : Int) : Bool :=
  decide (-9223372036854775808 ≤ n) && decide (n ≤ 9223372036854775807)

/-- An integer of 64 bits. -/
def whole : Shape Int
  | _, .int n => if fits n then some n else none
  | old, .null => some old
  | _, _ => none

/-- A value that may be absent; `null` makes it so. -/
def optional {α : Type} (fresh : α) (s : Shape α) : Shape (Option α)
  | _, .null => some none
  | old, j => (s (old.getD fresh) j).map some

/-- The items of a list, each in the place of an old one if there is one. -/
def items {α : Type} (fresh : α) (s : Shape α) : List α → List Json → Option (List α)
  | _, [] => some []
  | old, j :: rest =>
    match s (old.headD fresh) j with
    | some a => (items fresh s old.tail rest).map (a :: ·)
    | none => none

/-- A list that is read: its items, and what is left of longer readings before. -/
structure Row (α : Type) where
  items : List α := []
  spare : List α := []

/-- All items of a list and of the readings before. -/
def Row.all {α : Type} (r : Row α) : List α :=
  r.items ++ r.spare

/-- A list. It is read over the items of all readings before: a shorter one leaves the others in
place, and a longer one finds them again. `null` and an empty list make away with all of them. -/
def list {α : Type} (fresh : α) (s : Shape α) : Shape (Row α)
  | _, .null | _, .arr [] => some {}
  | old, .arr js => (items fresh s old.all js).map fun new => ⟨new, old.all.drop js.length⟩
  | _, _ => none

/-- A named slot of a record. -/
structure Slot (α : Type) where
  name : String
  read : Shape α

/-- A slot that is reached by reading and replacing its contents. -/
def slot {α β : Type} (name : String) (get : β → α) (put : β → α → β) (s : Shape α) : Slot β :=
  ⟨name, fun old j => (s (get old) j).map (put old)⟩

/-- The slot of a name. -/
def slotOf? {α : Type} (slots : List (Slot α)) (name : String) : Option (Slot α) :=
  match slots.find? (·.name == name) with
  | some p => some p
  | none => slots.find? fun p => isNamed name p.name

/-- Takes fields one after another. -/
def fields {α : Type} (slots : List (Slot α)) (old : α) : List (String × Json) → Option α
  | [] => some old
  | (name, j) :: rest =>
    match slotOf? slots name with
    | none => fields slots old rest
    | some p =>
      match p.read old j with
      | some new => fields slots new rest
      | none => none

/-- A record of named slots. -/
def record {α : Type} (slots : List (Slot α)) : Shape α
  | old, .null => some old
  | old, .obj fs => fields slots old fs
  | _, _ => none

end Shape

end LittleLisp.Json
