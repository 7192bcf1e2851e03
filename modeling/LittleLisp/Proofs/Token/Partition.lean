import LittleLisp.Proofs.Source.Place
import LittleLisp.Proofs.Token.Step

/-!
# How tokens cut a source

A source that is read has one range of bytes for each of its tokens, and between these ranges there
are only blanks and comments. A token stands where its range starts: on the line after as many
newlines, in the column after as many glyphs. The bytes of its range are that token, also when they
are all that is read.

The ranges are found along the steps of the lexer: a step that skips something makes the next gap
longer (`Tiling.skip`), and one that takes a token starts a new one (`Tiling.token`).
-/

namespace LittleLisp

/-- A range of bytes. -/
structure Span where
  start : Nat
  stop : Nat
deriving DecidableEq, Repr

namespace Span

/-- The bytes in a range. -/
def of (r : Span) (bytes : List UInt8) : List UInt8 :=
  (bytes.drop r.start).take (r.stop - r.start)

/-- The ranges between `start` and `stop` that lie before, between and after other ranges. -/
def gaps (start stop : Nat) : List Span → List Span
  | [] => [⟨start, stop⟩]
  | r :: more => ⟨start, r.start⟩ :: gaps r.stop stop more

theorem of_append (before piece after : List UInt8) :
    of ⟨before.length, before.length + piece.length⟩ (before ++ (piece ++ after)) = piece := by
  rw [of, List.drop_left, Nat.add_sub_cancel_left, List.take_left]

/-- A range that starts earlier has the bytes before it as well. -/
theorem of_append_of_le (before piece after : List UInt8) {stop : Nat}
    (le : before.length + piece.length ≤ stop) :
    of ⟨before.length, stop⟩ (before ++ (piece ++ after)) =
      piece ++ of ⟨before.length + piece.length, stop⟩ (before ++ (piece ++ after)) := by
  have later : stop - before.length = piece.length + (stop - (before.length + piece.length)) := by
    omega
  rw [of, of, List.drop_left, later, List.take_length_add_append, ← List.append_assoc,
    ← List.length_append, List.drop_left]

theorem of_append_drop {start stop : Nat} (le : start ≤ stop) (bytes : List UInt8) :
    of ⟨start, stop⟩ bytes ++ bytes.drop stop = bytes.drop start := by
  have later : bytes.drop stop = (bytes.drop start).drop (stop - start) := by
    rw [List.drop_drop, Nat.add_sub_cancel' le]
  rw [of, later, List.take_append_drop]

end Span

namespace Token

open Source (newlineByte)

/-- Bytes that stand between two tokens, before `after`: blanks, and comments up to a newline or to
the end of everything. -/
inductive IsGap (after : List UInt8) : List UInt8 → Prop where
  | nil : IsGap after []
  | blank {c : Char} {gap : List UInt8} (blank : Text.isBlank c = true) (more : IsGap after gap) :
      IsGap after (String.utf8EncodeChar c ++ gap)
  | comment {text gap : List UInt8} (inside : newlineByte ∉ text)
      (ends : ∀ b ∈ (gap ++ after).head?, b = newlineByte) (more : IsGap after gap) :
      IsGap after (String.utf8EncodeChar ';' ++ text ++ gap)

/-- A token is read from a range of bytes, and stands where the range starts. -/
structure ReadFrom (file : String) (bytes : List UInt8) (t : Token) (r : Span) : Prop where
  nonempty : r.start < r.stop
  inside : r.stop ≤ bytes.length
  file_eq : t.loc.file = file
  line_eq : t.loc.line = 1 + (bytes.take r.start).count newlineByte
  col_eq : t.loc.col = 1 + (Source.ofBytes (Source.lastLineBytes (bytes.take r.start))).length
  /-- The bytes of the range alone are this one token. -/
  alone : lex file (Source.ofBytes (r.of bytes)) =
    .ok [⟨t.value, ⟨file, 1, 1, t.loc.len, none⟩⟩]

/-- Behind its first `start` bytes, a text is cut into the ranges of its tokens, one after the
other, and what is between tokens. -/
structure Tiling (file : String) (bytes : List UInt8) (start : Nat) (tokens : List Token)
    (ranges : List Span) : Prop where
  after : ∀ r ∈ ranges, start ≤ r.start
  ordered : ranges.Pairwise fun a b => a.stop ≤ b.start
  read : List.Forall₂ (ReadFrom file bytes) tokens ranges
  between : ∀ g ∈ Span.gaps start bytes.length ranges, IsGap (bytes.drop g.stop) (g.of bytes)

/-! ## What is skipped -/

theorem eq_char_of_isBlank {g : Glyph} (blank : Text.isBlank g.rune = true) :
    ∃ c, g = .char c ∧ Text.isBlank c = true := by
  cases g with
  | char c => exact ⟨c, rfl, blank⟩
  | stray b =>
    have other : Text.isBlank (Char.ofNat 0xfffd) = false := by decide
    exact absurd blank (Bool.eq_false_iff.1 other)

/-- What a step skips makes a gap longer. -/
theorem isGap_of_skip {first : Glyph} {rest : Source} {more : Nat} {gap after : List UInt8}
    (skips : step first rest = .skip more) (read : Source.IsRead rest)
    (left : gap ++ after = Source.bytes (rest.drop more)) (h : IsGap after gap) :
    IsGap after (Source.bytes (first :: rest.take more) ++ gap) := by
  rcases step_eq_skip skips with ⟨blank, rfl⟩ | ⟨-, comment, rfl⟩
  · obtain ⟨c, rfl, blank⟩ := eq_char_of_isBlank blank
    have alone : Source.bytes [.char c] = String.utf8EncodeChar c := List.append_nil _
    rw [List.take_zero, alone]
    exact .blank blank h
  · obtain rfl := eq_char_of_rune (by decide) comment
    rw [take_length_takeWhile]
    have whole := List.takeWhile_append_dropWhile (p := fun g => decide (g.rune ≠ '\n')) (l := rest)
    generalize text_eq : rest.takeWhile (fun g => decide (g.rune ≠ '\n')) = text at whole left
    have plain : Source.newline ∉ text := by
      intro member
      rw [← text_eq] at member
      exact absurd (List.mem_takeWhile_imp member) (by decide)
    have shape : Source.bytes (.char ';' :: text) =
        String.utf8EncodeChar ';' ++ Source.bytes text := rfl
    rw [shape]
    refine .comment ?_ ?_ h
    · rw [← whole] at read
      have own : Source.ofBytes (Source.bytes text) = text := read.left
      have count := Source.count_newline_ofBytes (Source.bytes text)
      rw [own, List.count_eq_zero.2 plain] at count
      exact List.count_eq_zero.1 count.symm
    · -- The text of a comment stops only at a newline.
      have stop := List.head?_dropWhile_not (fun g : Glyph => decide (g.rune ≠ '\n')) rest
      have drop : rest.drop text.length = rest.dropWhile fun g => decide (g.rune ≠ '\n') := by
        conv => lhs; rw [← whole]
        exact List.drop_left
      rw [left, drop]
      cases left : rest.dropWhile (fun g => decide (g.rune ≠ '\n')) with
      | nil => intro b hb; cases hb
      | cons g later =>
        rw [left] at stop
        obtain rfl : g = Source.newline :=
          eq_char_of_rune (by decide) (not_not.1 (of_decide_eq_false stop))
        intro b hb
        exact (Option.some.inj hb).symm

/-! ## The cuts of a source -/

section Cuts

variable {file : String} {before piece after : List UInt8} {t : Token} {tokens : List Token}
  {ranges : List Span}

/-- A text ends without a token. -/
theorem Tiling.nil (bytes : List UInt8) : Tiling file bytes bytes.length [] [] where
  after := by simp
  ordered := .nil
  read := .nil
  between := by
    intro g hg
    obtain rfl := List.mem_singleton.1 hg
    have none : Span.of ⟨bytes.length, bytes.length⟩ bytes = [] := by simp [Span.of]
    rw [none]
    exact .nil

/-- Something is skipped before the rest of the tokens. -/
theorem Tiling.skip
    (skipped : ∀ gap rest, gap ++ rest = after → IsGap rest gap → IsGap rest (piece ++ gap))
    (h : Tiling file (before ++ (piece ++ after)) (before.length + piece.length) tokens ranges) :
    Tiling file (before ++ (piece ++ after)) before.length tokens ranges where
  after := fun r hr => (Nat.le_add_right _ _).trans (h.after r hr)
  ordered := h.ordered
  read := h.read
  between := by
    have longer {stop : Nat} (le : before.length + piece.length ≤ stop)
        (gap : IsGap ((before ++ (piece ++ after)).drop stop)
          (Span.of ⟨before.length + piece.length, stop⟩ (before ++ (piece ++ after)))) :
        IsGap ((before ++ (piece ++ after)).drop stop)
          (Span.of ⟨before.length, stop⟩ (before ++ (piece ++ after))) := by
      rw [Span.of_append_of_le _ _ _ le]
      refine skipped _ _ ?_ gap
      rw [Span.of_append_drop le, ← List.append_assoc, ← List.length_append, List.drop_left]
    -- Only the first gap starts here; the others are not touched.
    intro g hg
    cases ranges with
    | nil =>
      obtain rfl := List.mem_singleton.1 hg
      refine longer ?_ (h.between _ (List.mem_singleton.2 rfl))
      simp only [List.length_append]
      omega
    | cons r ranges =>
      rcases List.mem_cons.1 hg with rfl | other
      · exact longer (h.after r List.mem_cons_self) (h.between _ List.mem_cons_self)
      · exact h.between g (List.mem_cons_of_mem _ other)

/-- A token is taken before the rest of the tokens. -/
theorem Tiling.token
    (read : ReadFrom file (before ++ (piece ++ after)) t
      ⟨before.length, before.length + piece.length⟩)
    (h : Tiling file (before ++ (piece ++ after)) (before.length + piece.length) tokens ranges) :
    Tiling file (before ++ (piece ++ after)) before.length (t :: tokens)
      (⟨before.length, before.length + piece.length⟩ :: ranges) where
  after := List.forall_mem_cons.2
    ⟨Nat.le_refl _, fun r hr => (Nat.le_add_right _ _).trans (h.after r hr)⟩
  ordered := .cons h.after h.ordered
  read := .cons read h.read
  between := by
    intro g hg
    rcases List.mem_cons.1 hg with rfl | other
    · have none : Span.of ⟨before.length, before.length⟩ (before ++ (piece ++ after)) = [] := by
        simp [Span.of]
      rw [none]
      exact .nil
    · exact h.between g other

end Cuts

/-! ## Runs of the lexer -/

section Runs

variable {file : String} {before rest : Source} {first : Glyph} {v : Value} {more len : Nat}

theorem bytes_append_take_drop (before rest : Source) (first : Glyph) (more : Nat) :
    before.bytes ++ (Source.bytes (first :: rest.take more) ++ Source.bytes (rest.drop more)) =
      (before ++ first :: rest).bytes := by
  rw [← append_take_drop before rest first more, Source.bytes_append, Source.bytes_append,
    List.append_assoc]

theorem bytes_ne_nil (first : Glyph) (rest : Source) : Source.bytes (first :: rest) ≠ [] := by
  cases first with
  | char c =>
    obtain ⟨b, tail, shape, -⟩ := Glyph.leadingChar?_utf8EncodeChar c []
    simp [Source.bytes, Glyph.bytes, shape]
  | stray b => simp [Source.bytes, Glyph.bytes]

/-- The token of a step is read from the bytes that the step takes. -/
theorem readFrom_of_step (file : String) (whole : Source.IsRead (before ++ first :: rest))
    (takes : step first rest = .token v more len) :
    ReadFrom file (before ++ first :: rest).bytes
      ⟨v, ⟨file, (Position.start.advance before).line, (Position.start.advance before).col, len,
        none⟩⟩
      ⟨before.bytes.length,
        before.bytes.length + (Source.bytes (first :: rest.take more)).length⟩ := by
  have own : Source.ofBytes before.bytes = before := whole.left
  have start : (before ++ first :: rest).bytes.take before.bytes.length = before.bytes := by
    rw [Source.bytes_append, List.take_left]
  constructor
  case nonempty =>
    have := List.length_pos_iff.2 (bytes_ne_nil first (rest.take more))
    simp only
    omega
  case inside =>
    rw [← bytes_append_take_drop before rest first more]
    simp only [List.length_append]
    omega
  case file_eq => rfl
  case line_eq =>
    rw [start, ← Source.count_newline_ofBytes, own, Position.advance_start]
    push_cast
    omega
  case col_eq =>
    rw [start, ← Source.lastLine_ofBytes, own, Position.advance_start]
    push_cast
    omega
  case alone =>
    obtain ⟨bound, again⟩ := step_of_token takes
    have same := again [] (goesOn_nil rest more)
    rw [List.append_nil] at same
    have piece : Source.IsRead (first :: rest.take more) := by
      have right := whole.right
      rw [← List.take_append_drop more rest, ← List.cons_append] at right
      exact right.left
    have left : (rest.take more).drop more = [] := List.drop_take_self
    rw [← bytes_append_take_drop before rest first more, Span.of_append,
      show Source.ofBytes (Source.bytes (first :: rest.take more)) = first :: rest.take more from
        piece]
    simp only [lex, scan, same, left]
    rfl

/-- What is left of a source is cut into the ranges of its tokens. -/
theorem exists_tiling_of_scan {tokens : List Token} (whole : Source.IsRead (before ++ rest))
    (h : scan file (Position.start.advance before) rest = .ok tokens) :
    ∃ ranges, Tiling file (before ++ rest).bytes before.bytes.length tokens ranges := by
  generalize place : Position.start.advance before = p at h
  induction p, rest using scan.induct file generalizing before tokens with
  | case1 p =>
    rw [scan] at h
    obtain rfl := Except.ok.inj h
    rw [List.append_nil]
    exact ⟨[], .nil _⟩
  | case2 p first rest more skips ih =>
    rw [scan, skips] at h
    have cut : Source.IsRead (before ++ first :: rest.take more ++ rest.drop more) := by
      rwa [append_take_drop]
    obtain ⟨ranges, tiling⟩ := ih cut (by rw [Position.advance_append, place]) h
    rw [← bytes_append_take_drop before rest first more]
    rw [Source.bytes_append, Source.bytes_append, List.length_append, List.append_assoc] at tiling
    exact ⟨ranges, .skip (fun gap after left => isGap_of_skip skips whole.right.tail left) tiling⟩
  | case3 p first rest value more len takes later read ih =>
    simp only [scan, takes, read] at h
    obtain rfl := Except.ok.inj h
    have cut : Source.IsRead (before ++ first :: rest.take more ++ rest.drop more) := by
      rwa [append_take_drop]
    obtain ⟨ranges, tiling⟩ := ih cut (by rw [Position.advance_append, place]) read
    have own := readFrom_of_step file whole takes
    rw [← bytes_append_take_drop before rest first more, place] at own
    rw [← bytes_append_take_drop before rest first more]
    rw [Source.bytes_append, Source.bytes_append, List.length_append, List.append_assoc] at tiling
    exact ⟨_, .token own tiling⟩
  | case4 p first rest value more len takes problem fails ih =>
    simp only [scan, takes, fails] at h
    cases h
  | case5 p first rest cause len faults =>
    rw [scan, faults] at h
    cases h

/-- **Tokens cut their source.** The tokens of a source are read from ranges of its bytes, one after
the other, with only blanks and comments between them. -/
theorem exists_ranges_of_lex {bytes : List UInt8} {tokens : List Token}
    (h : lex file (Source.ofBytes bytes) = .ok tokens) :
    ∃ ranges : List Span, (ranges.Pairwise fun a b => a.stop ≤ b.start) ∧
      List.Forall₂ (ReadFrom file bytes) tokens ranges ∧
      ∀ g ∈ Span.gaps 0 bytes.length ranges, IsGap (bytes.drop g.stop) (g.of bytes) := by
  have whole : Source.IsRead ([] ++ Source.ofBytes bytes) := Source.isRead_ofBytes bytes
  obtain ⟨ranges, tiling⟩ := exists_tiling_of_scan whole h
  rw [List.nil_append, Source.bytes_ofBytes] at tiling
  exact ⟨ranges, tiling.ordered, tiling.read, tiling.between⟩

/-- A comment, and then a form over two lines: a string of a newline and a byte that is no character,
and a minus sign before a parenthesis. -/
def commented : List UInt8 :=
  [59, 99, 10, 40, 34, 10, 255, 34, 32, 45, 41]

def commentedTokens : List Token :=
  [⟨.opening, ⟨"a", 2, 1, 1, none⟩⟩,
    ⟨.str (String.ofList ['\n', Char.ofNat 0xfffd]), ⟨"a", 2, 2, 4, none⟩⟩,
    ⟨.ident "-", ⟨"a", 3, 4, 1, none⟩⟩, ⟨.closing, ⟨"a", 3, 5, 1, none⟩⟩]

theorem exists_ranges_of_commented :
    lex "a" (Source.ofBytes commented) = .ok commentedTokens ∧
      ∃ ranges : List Span, (ranges.Pairwise fun a b => a.stop ≤ b.start) ∧
        List.Forall₂ (ReadFrom "a" commented) commentedTokens ranges ∧
        ∀ g ∈ Span.gaps 0 commented.length ranges,
          IsGap (commented.drop g.stop) (g.of commented) := by
  have read : lex "a" (Source.ofBytes commented) = .ok commentedTokens := by with_unfolding_all rfl
  exact ⟨read, exists_ranges_of_lex read⟩

end Runs

end Token

end LittleLisp
