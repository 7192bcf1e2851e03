import LittleLisp.Fault
import LittleLisp.Terminal

/-!
# Reports

A problem that has a place can be shown against the source: its message, its place, the line that it
is on with two lines before and after, and marks under what it is about.
-/

namespace LittleLisp

namespace Excerpt

/-- How many lines are shown before and after the line of the problem. -/
def context : Int := 2

/-- A text after as many blanks as make it `width` characters long. -/
def padLeft (width : Nat) (s : String) : String :=
  String.ofList (List.replicate (width - s.length) ' ') ++ s

/-- What stands beside a line: its number, or nothing, and a bar. -/
def gutter (style : Terminal.Style) (number : String) : String :=
  " " ++ Terminal.paint style (padLeft 3 number ++ " |")

/-- A number of equal characters. -/
def run (c : Char) (n : Int) : String :=
  String.ofList (List.replicate n.toNat c)

/-- The marks under the problem. The blanks before them are as wide as the gutter and the columns
before the problem. -/
def marks (l : Location) : String :=
  run ' ' (1 + 3 + 3 + l.col - 1) ++ Terminal.paint .mark (run '^' (max 1 l.len)) ++ "\n"

/-- One line of the source beside its number, with the marks under the line of the problem. -/
def numbered (l : Location) (number : Int) (line : Source) : Source :=
  let style := if number = l.line then .focus else .gutter
  Source.ofString (gutter style (toString number) ++ " ") ++ line ++
    Source.ofString ("\n" ++ if number = l.line then marks l else "")

/-- The lines around the problem, where the first of `lines` has the given number. -/
def window (l : Location) (number : Int) : List Source → Source
  | [] => []
  | line :: rest =>
    (if l.line - context ≤ number ∧ number ≤ l.line + context then numbered l number line
      else []) ++
      window l (number + 1) rest

/-- A message against its source. A place outside of the source leaves the message alone. -/
def styled (message : String) (l : Location) (source : Source) : Source :=
  let lines := source.lines
  if l.line < 1 ∨ lines.length < l.line then Source.ofString message
  else
    Source.ofString (Terminal.paint .alarm "Error:" ++ " " ++ message ++ "\n" ++
      "  " ++ Terminal.paint .place ("--> " ++ l.text) ++ "\n" ++ gutter .gutter "" ++ "\n") ++
    window l 1 lines ++
    Source.ofString (gutter .gutter "" ++ "\n")

end Excerpt

/-- A problem, and the source that it is shown against. -/
structure Report where
  problem : Problem
  source : Option Source
deriving Repr

namespace Report

/-- A problem alone. -/
def bare (p : Problem) : Report :=
  ⟨p, none⟩

/-- Shows a report against a source, if its problem has a place and it has no source yet. -/
def attach (r : Report) (source : Source) : Report :=
  match r.source, r.problem.loc with
  | none, some _ => ⟨r.problem, some source⟩
  | _, _ => r

/-- The text of a report, styled. -/
def styled (r : Report) : Source :=
  match r.problem.loc, r.source with
  | some l, some source => Excerpt.styled r.problem.message l source
  | _, _ => Source.ofString r.problem.message

/-- The text of a report without styling. -/
def plain (r : Report) : Source :=
  Terminal.strip r.styled

/-- A report keeps the first source that it is shown against. -/
@[simp] theorem attach_attach (r : Report) (s t : Source) :
    (r.attach s).attach t = r.attach s := by
  rcases r with ⟨⟨fault, loc⟩, source⟩
  cases source <;> cases loc <;> rfl

end Report

end LittleLisp
