import LittleLisp.Source

/-!
# Places in a source

Lines and columns count from one, and a column is a number of glyphs.
-/

namespace LittleLisp

/-- A line and a column. -/
structure Position where
  line : Int
  col : Int
deriving DecidableEq, Repr

namespace Position

/-- The place of the first glyph of a source. -/
def start : Position :=
  ⟨1, 1⟩

/-- The place after one glyph. -/
def next (p : Position) (g : Glyph) : Position :=
  if g = Source.newline then ⟨p.line + 1, 1⟩ else ⟨p.line, p.col + 1⟩

/-- The place after a piece of source. -/
def advance (p : Position) (s : Source) : Position :=
  s.foldl next p

@[simp] theorem advance_nil (p : Position) : p.advance [] = p := rfl

@[simp] theorem advance_append (p : Position) (s t : Source) :
    p.advance (s ++ t) = (p.advance s).advance t := by
  simp [advance]

end Position

/-- The place and extent of a token, a tree or a fault. Forms in parentheses also know where they
stop. -/
structure Location where
  file : String
  line : Int
  col : Int
  len : Int
  stop : Option Position := none
deriving DecidableEq, Repr

namespace Location

/-- A location as people write it: `file:line:column`. -/
def text (l : Location) : String :=
  l.file ++ ":" ++ toString l.line ++ ":" ++ toString l.col

/-- The location of something that may have none. -/
def textOf : Option Location → String
  | some l => l.text
  | none => "<unknown>"

end Location

end LittleLisp
