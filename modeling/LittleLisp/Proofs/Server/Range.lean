import LittleLisp.Proofs.Server.Mention
import LittleLisp.Proofs.Tree.Extent

/-!
# Ranges of trees

The range that an editor gets for a tree starts at the first glyph that the tree is read from. It stops
behind the last one for forms, which know where they stop, and for numbers and identifiers, which are on
one line. For literals in quotes it does so exactly if they are on one line and, as the length of a string
is in bytes, a string has only glyphs of one byte (`Node.IsMeasured`). So the ranges of the parts of a
form lie in that of the form and apart from each other, as far as literals are measured
(`ranges_of_parse`).
-/

namespace LittleLisp

namespace Server

/-! ## Cursors and ranges -/

/-- The place behind a piece of source: the number of newlines, and of glyphs after the last one. -/
def Cursor.behind (s : Source) : Cursor :=
  ⟨s.count Source.newline, s.lastLine.length⟩

theorem Cursor.position_behind (s : Source) :
    (Cursor.behind s).position = Position.start.advance s := by
  rw [Position.advance_start]
  rfl

theorem Cursor.position_inj {c d : Cursor} : c.position = d.position ↔ c = d := by
  obtain ⟨line, character⟩ := c
  obtain ⟨line', character'⟩ := d
  simp [Cursor.position]

namespace Range

theorem position_start (l : Location) : (ofLocation l).start.position = l.start := by
  obtain ⟨file, line, col, len, stop⟩ := l
  cases stop <;> simp [ofLocation, Cursor.position, Location.start]

theorem position_stop (l : Location) : (ofLocation l).stop.position = l.finish := by
  obtain ⟨file, line, col, len, stop⟩ := l
  cases stop <;> simp [ofLocation, Cursor.position, Location.finish]
  omega

/-- A range lies in another one. -/
structure Within (r outer : Range) : Prop where
  start : outer.start.position ≤ r.start.position
  stop : r.stop.position ≤ outer.stop.position

/-- A range has come to its end where another one starts. -/
def Before (a b : Range) : Prop :=
  a.stop.position ≤ b.start.position

end Range

end Server

open Server (Cursor Range)

/-! ## Trees -/

namespace Node

variable {file : String} {n : Node} {before piece after source : Source}

/-- The lexer's length of the piece that a tree is read from leads behind its last glyph: what is in
quotes is on one line, and a string has only glyphs of one byte. -/
def IsMeasured (n : Node) (piece : Source) : Prop :=
  match n with
  | str _ _ => Source.newline ∉ piece ∧ piece.size = piece.length
  | char _ _ => Source.newline ∉ piece
  | _ => True

theorem ReadFrom.finish_iff (h : ReadFrom file n before piece after) :
    n.loc.finish = Position.start.advance (before ++ piece) ↔ n.IsMeasured piece := by
  cases h with
  | @leaf n before piece after v len takes leaf =>
    rw [Token.loc_of_leaf? leaf, Location.finish_behind_iff takes.pos]
    have measured := takes.measured
    cases v with
    | opening | closing => cases leaf
    | int value =>
      cases leaf
      cases measured with
      | int _ line => simp [IsMeasured, line]
    | char value =>
      cases leaf
      cases measured with
      | char => simp [IsMeasured]
    | str value =>
      cases leaf
      cases measured with
      | str => exact Iff.rfl
    | ident name =>
      cases leaf
      cases measured with
      | ident _ line => simp [IsMeasured, line]
  | form row made =>
    rw [Location.finish, stop_of_form made, Option.getD_some, eq_self, true_iff]
    obtain ⟨rfl, -⟩ | ⟨head, args, cs, -, -, -, rfl⟩ := ofMembers_eq_ok made
    · trivial
    · trivial

/-- In a source, the range of a tree is the piece that the tree is read from. -/
def Exact (n : Node) (file : String) (source : Source) : Prop :=
  ∃ before piece, n.StandsAt file source before piece ∧
    Range.ofLocation n.loc = ⟨.behind before, .behind (before ++ piece)⟩

theorem ReadFrom.start_range (h : ReadFrom file n before piece after) :
    (Range.ofLocation n.loc).start = .behind before := by
  rw [← Cursor.position_inj, Cursor.position_behind, Range.position_start, h.start]

theorem ReadFrom.stop_range_iff (h : ReadFrom file n before piece after) :
    (Range.ofLocation n.loc).stop = .behind (before ++ piece) ↔ n.IsMeasured piece := by
  rw [← Cursor.position_inj, Cursor.position_behind, Range.position_stop, h.finish_iff]

/-- A tree whose range is right stops where its piece stops. -/
theorem Exact.finish (h : n.Exact file source) (stands : n.StandsAt file source before piece) :
    n.loc.finish = Position.start.advance (before ++ piece) := by
  obtain ⟨b, p, stands', range⟩ := h
  obtain ⟨rfl, rfl⟩ := stands.unique stands'
  rw [← Range.position_stop, range, Cursor.position_behind]

/-- Only leaves have a length that matters. -/
theorem isMeasured_of_mem_parts {m : Node} (h : m ∈ n.parts) (piece : Source) :
    n.IsMeasured piece := by
  cases n with
  | call | cond | int | ident => trivial
  | char | str => cases h

theorem Within.range {m : Node} (h : m.Within file source n) (part : m ∈ n.parts)
    (exact_ : m.Exact file source) :
    (Range.ofLocation m.loc).Within (Range.ofLocation n.loc) := by
  obtain ⟨b, p, before, piece, inner, outer, start, stop⟩ := h
  have finish := exact_.finish inner
  obtain ⟨after, -, read⟩ := inner
  obtain ⟨after', -, read'⟩ := outer
  constructor
  · rw [Range.position_start, Range.position_start, read.start, read'.start]
    exact Position.advance_le_of_prefix _ start
  · rw [Range.position_stop, Range.position_stop, finish,
      read'.finish_iff.2 (isMeasured_of_mem_parts part piece)]
    exact Position.advance_le_of_prefix _ stop

theorem Precedes.range {m : Node} (h : m.Precedes file source n) (exact_ : m.Exact file source) :
    (Range.ofLocation m.loc).Before (Range.ofLocation n.loc) := by
  obtain ⟨b, p, before, piece, first, ⟨after, -, read⟩, apart⟩ := h
  rw [Range.Before, Range.position_stop, Range.position_start, exact_.finish first, read.start]
  exact Position.advance_le_of_prefix _ apart

end Node

namespace Server

/-- **Ranges of trees.** In a source that is read, every tree is read from a piece of the source. Its
range starts where the piece starts, and it stops where the piece stops exactly if the piece has the
length that the lexer gives it. Parts of the tree whose ranges are right so have ranges in that of the
tree, which end before those of later parts start. -/
theorem ranges_of_parse {file : String} {source : Source} {forms : List Node}
    (parsed : Node.parse file source = .ok forms) {n : Node} (hn : n ∈ forms.flatMap Node.walk) :
    (∃ before piece after, before ++ (piece ++ after) = source ∧
      n.ReadFrom file before piece after ∧
      (Range.ofLocation n.loc).start = .behind before ∧
      ((Range.ofLocation n.loc).stop = .behind (before ++ piece) ↔ n.IsMeasured piece)) ∧
    (∀ m ∈ n.parts, m.Exact file source →
      (Range.ofLocation m.loc).Within (Range.ofLocation n.loc)) ∧
    n.parts.Pairwise fun a b => a.Exact file source →
      (Range.ofLocation a.loc).Before (Range.ofLocation b.loc) := by
  obtain ⟨before, piece, stands⟩ := Node.exists_standsAt_of_parse parsed n hn
  obtain ⟨within, ordered⟩ := stands.ordered_parts
  obtain ⟨after, whole, read⟩ := stands
  exact ⟨⟨before, piece, after, whole, read, read.start_range, read.stop_range_iff⟩,
    fun m hm => (within m hm).range hm, ordered.imp Node.Precedes.range⟩

/-- A form on two lines, with a number, a comment and a character constant. -/
def twoLines : Source :=
  .ofString "(+ 12 ; é\n  'c')"

theorem ranges_of_parse_twoLines : ∃ n, Node.parse "a" twoLines = .ok [n] ∧
    (n :: n.parts).map (fun m => Range.ofLocation m.loc) =
      [⟨⟨0, 0⟩, ⟨1, 6⟩⟩, ⟨⟨0, 1⟩, ⟨0, 2⟩⟩, ⟨⟨0, 3⟩, ⟨0, 5⟩⟩, ⟨⟨1, 2⟩, ⟨1, 5⟩⟩] ∧
    (∃ before piece after, before ++ (piece ++ after) = twoLines ∧
      n.ReadFrom "a" before piece after ∧
      (Range.ofLocation n.loc).start = .behind before ∧
      ((Range.ofLocation n.loc).stop = .behind (before ++ piece) ↔ n.IsMeasured piece)) ∧
    (∀ m ∈ n.parts, m.Exact "a" twoLines →
      (Range.ofLocation m.loc).Within (Range.ofLocation n.loc)) ∧
    n.parts.Pairwise fun a b => a.Exact "a" twoLines →
      (Range.ofLocation a.loc).Before (Range.ofLocation b.loc) := by
  have parsed : Node.parse "a" twoLines = .ok [.call [.ident "+" ⟨"a", 1, 2, 1, none⟩,
      .int 12 ⟨"a", 1, 4, 2, none⟩, .char 'c' ⟨"a", 2, 3, 3, none⟩]
      ⟨"a", 1, 1, 1, some ⟨2, 7⟩⟩] := by
    with_unfolding_all rfl
  exact ⟨_, parsed, by decide, ranges_of_parse parsed (by simp [Node.walk])⟩

/-- A string of a character of two bytes, and an identifier right behind it. -/
def crowded : Source :=
  .ofString "(+ \"é\"+)"

def crowdedTokens : List Token :=
  [⟨.opening, ⟨"a", 1, 1, 1, none⟩⟩, ⟨.ident "+", ⟨"a", 1, 2, 1, none⟩⟩,
    ⟨.str (String.ofList ['é']), ⟨"a", 1, 4, 4, none⟩⟩, ⟨.ident "+", ⟨"a", 1, 7, 1, none⟩⟩,
    ⟨.closing, ⟨"a", 1, 8, 1, none⟩⟩]

theorem lex_crowded : Token.lex "a" crowded = .ok crowdedTokens := by
  have same : (Token.lex "a" crowded).toOption.map id = some crowdedTokens := by decide +kernel
  obtain ⟨tokens, lexed, rfl⟩ := exists_eq_ok same
  exact lexed

/-- The range of the string reaches over the identifier. -/
theorem string_range_too_long : ∃ f s x l, Node.parse "a" crowded = .ok [.call [f, s, x] l] ∧
    s.StandsAt "a" crowded (.ofString "(+ ") (.ofString "\"é\"") ∧
    Cursor.behind (.ofString "(+ " ++ .ofString "\"é\"") = ⟨0, 6⟩ ∧
    Range.ofLocation s.loc = ⟨⟨0, 3⟩, ⟨0, 7⟩⟩ ∧ ¬ s.Exact "a" crowded ∧
    ¬ (Range.ofLocation s.loc).Before (Range.ofLocation x.loc) := by
  have parsed : Node.parse "a" crowded = .ok [.call [.ident "+" ⟨"a", 1, 2, 1, none⟩,
      .str (String.ofList ['é']) ⟨"a", 1, 4, 4, none⟩, .ident "+" ⟨"a", 1, 7, 1, none⟩]
      ⟨"a", 1, 1, 8, some ⟨1, 9⟩⟩] := by
    rw [Node.parse, lex_crowded]
    rfl
  have takes : Token.Takes (.ofString "\"é\"") (.ofString "+)") (.str (String.ofList ['é'])) 4 :=
    ⟨.char '"', [.char 'é', .char '"'], by decide, by with_unfolding_all rfl⟩
  have stands : (Node.str (String.ofList ['é']) ⟨"a", 1, 4, 4, none⟩).StandsAt "a" crowded
      (.ofString "(+ ") (.ofString "\"é\"") :=
    ⟨.ofString "+)", by decide, .leaf takes (by with_unfolding_all rfl)⟩
  refine ⟨_, _, _, _, parsed, stands, by decide, by decide, ?_, ?_⟩
  · intro right
    have finish := right.finish stands
    revert finish
    decide
  · rw [Range.Before, Position.le_iff]
    decide

end Server

end LittleLisp
