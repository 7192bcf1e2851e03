import LittleLisp.Unit

/-!
# Tables of signatures

The functions of a unit with their inferred types, in a table with rounded corners. Every column is
as wide as its widest cell and a blank on each side.
-/

namespace LittleLisp.Command

/-- The lines and corners of one rule of a table. -/
structure Rule where
  left : String
  line : String
  cross : String
  right : String

/-- The rule above a table. -/
def topRule : Rule := ⟨"╭", "─", "┬", "╮"⟩

/-- The rule between the heads of the columns and the rows. -/
def headRule : Rule := ⟨"├", "─", "┼", "┤"⟩

/-- The rule below a table. -/
def bottomRule : Rule := ⟨"╰", "─", "┴", "╯"⟩

/-- A rule over columns of these widths. -/
def Rule.text (r : Rule) (widths : List Nat) : String :=
  r.left ++ r.cross.intercalate (widths.map fun w =>
    String.join (List.replicate (w + 2) r.line)) ++ r.right

/-- A cell with a blank on each side, filled up to a width. What counts is the width of the cell
with its blanks, since a sign may join the blank after it. -/
def cellText (w : Nat) (cell : String) : String :=
  let padded := " " ++ cell ++ " "
  padded ++ String.ofList (List.replicate (w + 2 - Terminal.width padded) ' ')

/-- A row of cells in columns of these widths. -/
def rowText (widths : List Nat) (cells : List String) : String :=
  "│" ++ "│".intercalate ((cells.zip widths).map fun (cell, w) => cellText w cell) ++ "│"

/-- The heads of the columns. -/
def heads : List String :=
  ["FUNCTION", "PARAMETERS", "RETURNS"]

/-- The cells of a function. -/
def cells (d : Definition) : List String :=
  [d.name, d.paramsText, d.ret.name]

/-- The widths of the columns of some rows. -/
def columnWidths (rows : List (List String)) : List Nat :=
  rows.foldl (fun widths row => List.zipWith (fun w cell => max w (Terminal.width cell)) widths row)
    (heads.map Terminal.width)

/-- The table of some functions. -/
def grid (functions : List Definition) : List String :=
  let rows := functions.map cells
  let widths := columnWidths rows
  topRule.text widths :: rowText widths heads :: headRule.text widths ::
    rows.map (rowText widths) ++ [bottomRule.text widths]

/-- How many rounds inference took. -/
def summary (u : CompiledUnit) : String :=
  "inferred in " ++ toString u.rounds ++ " rounds" ++
    if u.converged then "" else " (round limit reached)"

/-- The signatures of a unit, under the name of its file, which is styled. -/
def signaturesText (u : CompiledUnit) : String :=
  let functions := u.table.functions
  let lines := if functions.isEmpty then ["no functions"] else grid functions ++ [summary u]
  String.join ((Terminal.paint .title u.file :: lines).map (· ++ "\n"))

end LittleLisp.Command
