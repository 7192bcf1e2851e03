import LittleLisp.Report

/-!
# Excerpts

A problem on a line of the source is shown with an excerpt: a heading, the line, and marks under it.
-/

namespace LittleLisp.Excerpt

/-- What stands above the lines of an excerpt: the message and the place. -/
def heading (message : String) (l : Location) : Source :=
  Source.ofString (Terminal.paint .alarm "Error:" ++ " " ++ message ++ "\n" ++
    "  " ++ Terminal.paint .place ("--> " ++ l.text) ++ "\n" ++ gutter .gutter "" ++ "\n")

/-- The window shows the line of the problem, and marks under it. -/
theorem exists_window (l : Location) {lines : List Source} {i : Nat} {line : Source}
    (found : lines[i]? = some line) (number : Int) (here : number + i = l.line) :
    ∃ above below, window l number lines =
      above ++ (line ++ Source.ofString ("\n" ++ marks l)) ++ below := by
  induction lines generalizing i number with
  | nil => cases found
  | cons first rest ih =>
    cases i with
    | zero =>
      obtain rfl := Option.some.inj found
      obtain rfl : number = l.line := by omega
      refine ⟨Source.ofString (gutter .focus (toString l.line) ++ " "),
        window l (l.line + 1) rest, ?_⟩
      have near : l.line - context ≤ l.line ∧ l.line ≤ l.line + context := by
        simp only [context]
        omega
      simp only [window, if_pos near, numbered, if_true, List.append_assoc]
    | succ i =>
      obtain ⟨above, below, shown⟩ := ih found (number + 1) (by omega)
      rw [window, shown, ← List.append_assoc, ← List.append_assoc]
      exact ⟨_, below, rfl⟩

/-- A problem on a line of the source is shown with that line and marks under it. -/
theorem exists_styled (message : String) {l : Location} {source line : Source} (first : 1 ≤ l.line)
    (found : source.lines[(l.line - 1).toNat]? = some line) :
    ∃ above below, styled message l source =
      heading message l ++ above ++ (line ++ Source.ofString ("\n" ++ marks l)) ++ below := by
  obtain ⟨inside, -⟩ := List.getElem?_eq_some_iff.1 found
  have on_line : ¬ (l.line < 1 ∨ source.lines.length < l.line) := by omega
  obtain ⟨above, below, shown⟩ := exists_window l found 1 (by omega)
  refine ⟨above, below ++ Source.ofString (gutter .gutter "" ++ "\n"), ?_⟩
  simp only [styled, if_neg on_line, shown, heading, List.append_assoc]

end LittleLisp.Excerpt
