import LittleLisp.Location
import LittleLisp.Proofs.Source.Decoding
import Mathlib.Data.List.DropRight

/-!
# Places in a source

Whoever goes through a source glyph by glyph comes to the line after as many newlines, and to the
column after as many glyphs as come after the last of them (`advance_start`). So the place of a glyph
that ends no line is on a line of the source, and no further than that line is long
(`PointsInto.bounds`).
-/

namespace LittleLisp

/-- What a list ends with does not reach over something that it has none of. -/
theorem rtakeWhile_append_cons {α : Type} {p : α → Bool} {x : α} (h : p x = false)
    (before after : List α) :
    (before ++ x :: after).rtakeWhile p = after.rtakeWhile p := by
  induction after using List.reverseRecOn with
  | nil => rw [List.rtakeWhile_concat, h, List.rtakeWhile_nil]; rfl
  | append_singleton after y ih =>
    rw [← List.cons_append, ← List.append_assoc, List.rtakeWhile_concat, List.rtakeWhile_concat, ih]

namespace Source

/-- The glyphs after the last newline. -/
def lastLine (s : Source) : Source :=
  s.rtakeWhile (· != newline)

/-- The bytes after the last newline. -/
def lastLineBytes (bytes : List UInt8) : List UInt8 :=
  bytes.rtakeWhile (· != newlineByte)

theorem lastLine_append_newline (s t : Source) : (s ++ newline :: t).lastLine = lastLine t :=
  rtakeWhile_append_cons (p := (· != newline)) (bne_self_eq_false _) s t

theorem lastLine_of_not_mem {s : Source} (h : newline ∉ s) : s.lastLine = s := by
  rw [lastLine, List.rtakeWhile_eq_self_iff]
  intro g hg
  rw [bne_iff_ne]
  rintro rfl
  exact h hg

/-- The last line is the same in bytes and in glyphs. -/
theorem lastLine_ofBytes (bytes : List UInt8) :
    (ofBytes bytes).lastLine = ofBytes (lastLineBytes bytes) := by
  induction bytes using line_induction with
  | last line outside =>
    have whole : lastLineBytes line = line := by
      rw [lastLineBytes, List.rtakeWhile_eq_self_iff]
      intro b hb
      rw [bne_iff_ne]
      rintro rfl
      exact outside hb
    rw [whole, lastLine_of_not_mem (not_mem_ofBytes outside)]
  | more line rest outside ih =>
    have later : lastLineBytes (line ++ newlineByte :: rest) = lastLineBytes rest :=
      rtakeWhile_append_cons (p := (· != newlineByte)) (bne_self_eq_false _) line rest
    rw [ofBytes_append_newline, lastLine_append_newline, ih, later]

/-- A glyph that ends no line is on the line after as many newlines, behind what that line starts
with. -/
theorem lines_of_place {g : Glyph} (plain : g ≠ newline) (before after : Source) :
    ∃ rest, (before ++ g :: after).lines[before.count newline]? =
      some (before.lastLine ++ g :: rest) := by
  induction before with
  | nil =>
    rw [List.nil_append, lines, if_neg plain]
    split
    · exact ⟨[], rfl⟩
    · next first more _ => exact ⟨first, rfl⟩
  | cons x before ih =>
    obtain ⟨rest, found⟩ := ih
    refine ⟨rest, ?_⟩
    rw [List.cons_append, lines]
    split
    · next same =>
      subst same
      have later : lastLine (newline :: before) = lastLine before :=
        lastLine_append_newline [] before
      rw [List.count_cons_self, List.getElem?_cons_succ, found, later]
    · next other =>
      rw [List.count_cons_of_ne other]
      split
      · next none => exact absurd none (lines_ne_nil _)
      · next first more shape =>
        rw [shape] at found
        by_cases inside : newline ∈ before
        · -- The glyph is on a later line, which does not change.
          obtain ⟨a, b, rfl, -⟩ := List.eq_append_cons_of_mem inside
          rw [← List.cons_append, lastLine_append_newline]
          rw [lastLine_append_newline, List.count_append, List.count_cons_self,
            ← Nat.add_assoc] at found
          rw [List.count_append, List.count_cons_self, ← Nat.add_assoc]
          exact found
        · have alone : newline ∉ x :: before :=
              List.not_mem_cons_of_ne_of_not_mem (Ne.symm other) inside
          rw [lastLine_of_not_mem alone]
          rw [lastLine_of_not_mem inside, List.count_eq_zero.2 inside] at found
          rw [List.count_eq_zero.2 inside, List.getElem?_cons_zero,
            Option.some.inj found, List.cons_append]

end Source

namespace Position

/-- The place after a source that starts at the first place. -/
theorem advance_start (s : Source) :
    start.advance s = ⟨s.count Source.newline + 1, s.lastLine.length + 1⟩ := by
  induction s using List.reverseRecOn with
  | nil => rfl
  | append_singleton s g ih =>
    rw [advance_append, ih, advance, List.foldl_cons, List.foldl_nil, next]
    split
    · next same =>
      subst same
      rw [Source.lastLine_append_newline, List.count_append]
      simp [Source.lastLine]
    · next other =>
      have longer : Source.lastLine (s ++ [g]) = Source.lastLine s ++ [g] := by
        rw [Source.lastLine, List.rtakeWhile_concat, if_pos (bne_iff_ne.2 other)]
        rfl
      simp [longer, List.count_append, other]

end Position

namespace Location

/-- A location in a file is the place of a glyph of the source, and not of one that ends a line. -/
def PointsInto (l : Location) (file : String) (source : Source) : Prop :=
  l.file = file ∧ ∃ before g after, source = before ++ g :: after ∧ g ≠ Source.newline ∧
    Position.start.advance before = ⟨l.line, l.col⟩

/-- Such a location is on a line of the source, and no further than that line is long. -/
theorem PointsInto.bounds {l : Location} {file : String} {source : Source}
    (h : l.PointsInto file source) :
    1 ≤ l.line ∧ l.line ≤ source.lines.length ∧ 1 ≤ l.col ∧
      ∃ line, source.lines[(l.line - 1).toNat]? = some line ∧ l.col ≤ line.length := by
  obtain ⟨-, before, g, after, rfl, plain, place⟩ := h
  rw [Position.advance_start] at place
  obtain ⟨line, col⟩ := Position.mk.inj place
  obtain ⟨rest, found⟩ := Source.lines_of_place plain before after
  obtain ⟨inside, -⟩ := List.getElem?_eq_some_iff.1 found
  have index : (l.line - 1).toNat = before.count Source.newline := by omega
  refine ⟨by omega, by omega, by omega, _, by rw [index]; exact found, ?_⟩
  rw [List.length_append, List.length_cons]
  omega

end Location

end LittleLisp
