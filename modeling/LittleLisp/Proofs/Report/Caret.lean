import LittleLisp.Proofs.Report.Excerpt
import LittleLisp.Proofs.Terminal.Strip
import LittleLisp.Proofs.Text.Numeral

/-!
# The marks under a problem

Without styles, an excerpt is a heading, some lines of the source, each beside its number, and marks
under the line of the problem (`lines_strip_styled`). The first mark is as far from the margin as the
glyph at the column of the problem while line numbers have up to three digits. A longer number moves
the line, and not the marks (`plain_marks`).
-/

namespace LittleLisp

namespace Source

theorem lines_append (s t : Source) : (s ++ newline :: t).lines = s.lines ++ t.lines := by
  induction s with
  | nil => simp [lines]
  | cons g rest ih =>
    rw [List.cons_append, lines, ih, lines]
    split
    · rfl
    · cases first : lines rest with
      | nil => exact absurd first (lines_ne_nil rest)
      | cons line more => rfl

/-- Every line is part of the source, and no newline is on it. -/
theorem mem_of_mem_lines {s line : Source} (h : line ∈ s.lines) :
    ∀ g ∈ line, g ∈ s ∧ g ≠ newline := by
  induction s generalizing line with
  | nil =>
    obtain rfl := List.mem_singleton.1 h
    simp
  | cons x rest ih =>
    have later : ∀ other ∈ lines rest, ∀ g ∈ other, g ∈ x :: rest ∧ g ≠ newline :=
      fun other ho g hg => ⟨List.mem_cons_of_mem _ (ih ho g hg).1, (ih ho g hg).2⟩
    rw [lines] at h
    split at h
    · rcases List.mem_cons.1 h with rfl | h
      · simp
      · exact later line h
    · next other =>
      split at h
      · next none => exact absurd none (lines_ne_nil rest)
      · next first more shape =>
        rw [shape] at later
        rcases List.mem_cons.1 h with rfl | h
        · intro g hg
          rcases List.mem_cons.1 hg with rfl | hg
          · exact ⟨List.mem_cons_self, other⟩
          · exact later first List.mem_cons_self g hg
        · exact later line (List.mem_cons_of_mem _ h)

theorem ofString_append (s t : String) : ofString (s ++ t) = ofString s ++ ofString t := by
  simp [ofString]

end Source

namespace Excerpt

open Terminal (OneLine Quiet Shows)

/-! ## Pieces of an excerpt -/

/-- Visible characters. -/
def Visible (s : String) : Prop :=
  ∀ c ∈ s.toList, 0x20 ≤ c.toNat ∧ c.toNat ≤ 0x7e

/-- Visible characters can be told by going through them. -/
instance (s : String) : Decidable (Visible s) :=
  decidable_of_iff (s.toList.all (fun c => 0x20 ≤ c.toNat ∧ c.toNat ≤ 0x7e) = true)
    (by simp [Visible])

theorem Visible.oneLine {s : String} (visible : Visible s) : OneLine s := by
  intro c hc
  have := visible c hc
  refine ⟨?_, ?_, ?_⟩ <;> rintro rfl <;> revert this <;> decide

theorem Visible.quiet {s : String} (visible : Visible s) : Quiet (Source.ofString s) := by
  apply Terminal.quiet_ofString
  intro c hc
  have := visible c hc
  omega

theorem Visible.append {s t : String} (first : Visible s) (later : Visible t) :
    Visible (s ++ t) := by
  intro c hc
  rw [String.toList_append, List.mem_append] at hc
  exact hc.elim (first c) (later c)

theorem visible_toString (n : Int) : Visible (toString n) := by
  have digits (k : Nat) : ∀ c ∈ Nat.toDigits 10 k, 0x20 ≤ c.toNat ∧ c.toNat ≤ 0x7e := by
    intro c hc
    have := Text.isDecimal_iff.1 (Text.isDecimal_of_mem_toDigits hc)
    omega
  intro c hc
  by_cases nonneg : 0 ≤ n
  · rw [Text.intChars_of_nonneg nonneg] at hc
    exact digits _ c hc
  · rw [Text.intChars_of_neg (by omega)] at hc
    rcases List.mem_cons.1 hc with rfl | hc
    · decide
    · exact digits _ c hc

theorem visible_padLeft (width : Nat) {s : String} (visible : Visible s) :
    Visible (padLeft width s) := by
  refine .append ?_ visible
  intro c hc
  rw [String.toList_ofList] at hc
  obtain rfl := List.eq_of_mem_replicate hc
  decide

theorem visible_run {c : Char} (visible : 0x20 ≤ c.toNat ∧ c.toNat ≤ 0x7e) (n : Int) :
    Visible (run c n) := by
  intro d hd
  rw [run, String.toList_ofList] at hd
  obtain rfl := List.eq_of_mem_replicate hd
  exact visible

/-- What stands beside a line of the source, without style. -/
def beside (number : Int) : Source :=
  Source.ofString (" " ++ padLeft 3 (toString number) ++ " | ")

/-- The marks under the problem, without style. -/
def plainMarks (l : Location) : Source :=
  List.replicate (l.col + 6).toNat (.char ' ') ++ List.replicate (max 1 l.len).toNat (.char '^')

theorem ofString_newline : Source.ofString "\n" = [Source.newline] := rfl

theorem shows_newline : Shows [Source.newline] [Source.newline] := by
  apply Quiet.shows
  intro g hg
  exact ⟨'\n', List.mem_singleton.1 hg, by decide⟩

theorem shows_beside (style : Terminal.Style) (number : Int) :
    Shows (Source.ofString (gutter style (toString number) ++ " ")) (beside number) := by
  have blank : Visible " " := by decide
  have bar : Visible " |" := by decide
  have numeral := (visible_padLeft 3 (visible_toString number)).append bar
  have shown := (blank.quiet.shows.append
    (Terminal.shows_paint style numeral.oneLine numeral.quiet)).append blank.quiet.shows
  have ending : " |" ++ " " = " | " := rfl
  simpa only [gutter, beside, ← Source.ofString_append, String.append_assoc, ending] using shown

theorem shows_marks (l : Location) :
    Shows (Source.ofString (marks l)) (plainMarks l ++ [Source.newline]) := by
  have blanks : Visible (run ' ' (1 + 3 + 3 + l.col - 1)) := visible_run (by decide) _
  have carets : Visible (run '^' (max 1 l.len)) := visible_run (by decide) _
  have shown := (blanks.quiet.shows.append
    (Terminal.shows_paint .mark carets.oneLine carets.quiet)).append shows_newline
  have width : 1 + 3 + 3 + l.col - 1 = l.col + 6 := by omega
  have text : Source.ofString (run ' ' (1 + 3 + 3 + l.col - 1)) ++
      Source.ofString (run '^' (max 1 l.len)) = plainMarks l := by
    rw [width]
    simp [Source.ofString, run, plainMarks]
  rw [text] at shown
  simpa only [marks, Source.ofString_append, ofString_newline] using shown

/-! ## Lines of an excerpt -/

/-- The lines of a window without style, where the first of `lines` has the given number. -/
def plainWindow (l : Location) (number : Int) : List Source → List Source
  | [] => []
  | line :: rest =>
    (if l.line - context ≤ number ∧ number ≤ l.line + context then
        (beside number ++ line) :: if number = l.line then [plainMarks l] else []
      else []) ++
      plainWindow l (number + 1) rest

/-- Lines with a newline after each. -/
def ended (lines : List Source) : Source :=
  lines.flatMap (· ++ [Source.newline])

theorem shows_numbered {l : Location} {line : Source} (quiet : Quiet line) (number : Int) :
    Shows (numbered l number line)
      (ended ((beside number ++ line) :: if number = l.line then [plainMarks l] else [])) := by
  have shown := (shows_beside (if number = l.line then .focus else .gutter) number).append
    quiet.shows
  by_cases here : number = l.line
  · have marked := (shown.append shows_newline).append (shows_marks l)
    simpa [numbered, ended, here, Source.ofString_append, ofString_newline] using marked
  · have ending := shown.append shows_newline
    simpa [numbered, ended, here, Source.ofString_append, ofString_newline] using ending

theorem shows_window {l : Location} {lines : List Source} (quiet : ∀ line ∈ lines, Quiet line)
    (number : Int) : Shows (window l number lines) (ended (plainWindow l number lines)) := by
  induction lines generalizing number with
  | nil => exact .nil
  | cons line rest ih =>
    obtain ⟨first, later⟩ := List.forall_mem_cons.1 quiet
    rw [window, plainWindow, ended, List.flatMap_append]
    refine .append ?_ (ih later (number + 1))
    split
    · exact shows_numbered first number
    · exact .nil

theorem lines_ended {lines : List Source} (whole : ∀ line ∈ lines, Source.newline ∉ line)
    (rest : Source) : (ended lines ++ rest).lines = lines ++ rest.lines := by
  induction lines with
  | nil => rfl
  | cons line more ih =>
    obtain ⟨first, later⟩ := List.forall_mem_cons.1 whole
    have shape : ended (line :: more) ++ rest = line ++ Source.newline :: (ended more ++ rest) := by
      simp [ended]
    rw [shape, Source.lines_append, Source.lines_of_not_mem first, ih later]
    rfl

theorem whole_of_visible {s : String} (visible : Visible s) :
    Source.newline ∉ Source.ofString s := by
  intro inside
  obtain ⟨c, hc, same⟩ := List.mem_map.1 inside
  exact (visible.oneLine c hc).1 (Glyph.char.inj same)

theorem whole_beside (number : Int) : Source.newline ∉ beside number := by
  have blank : Visible " " := by decide
  have bar : Visible " | " := by decide
  exact whole_of_visible
    ((blank.append (visible_padLeft 3 (visible_toString number))).append bar)

theorem whole_plainMarks (l : Location) : Source.newline ∉ plainMarks l := by
  simp [plainMarks, Source.newline, List.mem_replicate]

theorem whole_plainWindow {l : Location} {lines : List Source}
    (whole : ∀ line ∈ lines, Source.newline ∉ line) (number : Int) :
    ∀ line ∈ plainWindow l number lines, Source.newline ∉ line := by
  induction lines generalizing number with
  | nil => exact List.forall_mem_nil _
  | cons line rest ih =>
    obtain ⟨first, later⟩ := List.forall_mem_cons.1 whole
    refine List.forall_mem_append.2 ⟨?_, ih later (number + 1)⟩
    split
    · refine List.forall_mem_cons.2 ⟨?_, ?_⟩
      · exact List.not_mem_append (whole_beside number) first
      · split
        · exact List.forall_mem_singleton.2 (whole_plainMarks l)
        · exact List.forall_mem_nil _
    · exact List.forall_mem_nil _

/-- The bar under the last line. -/
def closingBar : Source :=
  Source.ofString "     |"

theorem gutter_empty : gutter .gutter "" = " " ++ Terminal.paint .gutter "    |" := rfl

theorem shows_gutter : Shows (Source.ofString (gutter .gutter "")) closingBar := by
  have blank : Visible " " := by decide
  have bar : Visible "    |" := by decide
  have shown := blank.quiet.shows.append (Terminal.shows_paint .gutter bar.oneLine bar.quiet)
  rw [gutter_empty, Source.ofString_append]
  exact shown

/-- Without styles, a problem on a line of the source is shown as a heading, the lines around it with
their numbers and the marks, and a closing bar. -/
theorem lines_strip_styled (message : String) {l : Location} {source : Source}
    (quiet : Quiet source) (first : 1 ≤ l.line) (last : l.line ≤ source.lines.length) :
    ∃ top, (Terminal.strip (styled message l source)).lines =
      top ++ plainWindow l 1 source.lines ++ [closingBar, []] := by
  have on_line : ¬ (l.line < 1 ∨ source.lines.length < l.line) := by omega
  have parts (line : Source) (h : line ∈ source.lines) := Source.mem_of_mem_lines h
  have quiet_lines : ∀ line ∈ source.lines, Quiet line :=
    fun line h g hg => quiet g (parts line h g hg).1
  have whole : ∀ line ∈ source.lines, Source.newline ∉ line :=
    fun line h inside => (parts line h _ inside).2 rfl
  -- Whatever the message and the name of the file are, no sequence is open after the first bar.
  let before := Source.ofString (Terminal.paint .alarm "Error:" ++ " " ++ message ++ "\n" ++
    "  " ++ Terminal.paint .place ("--> " ++ l.text) ++ "\n")
  have closed : Terminal.modeAfter .ground (before ++ Source.ofString (gutter .gutter "")).bytes =
      .ground := by
    rw [Source.bytes_append, gutter_empty]
    exact Terminal.modeAfter_styled before.bytes
  have shown := (shows_window (l := l) quiet_lines 1).append (shows_gutter.append shows_newline)
  have pieces : styled message l source =
      (before ++ Source.ofString (gutter .gutter "")) ++ Source.newline ::
        (window l 1 source.lines ++ (Source.ofString (gutter .gutter "") ++ [Source.newline])) := by
    simp only [styled, if_neg on_line, before, Source.ofString_append, ofString_newline,
      List.append_assoc, List.cons_append, List.nil_append]
  rw [pieces, Terminal.strip_append_newline closed shown, Source.lines_append,
    lines_ended (whole_plainWindow whole 1), ← List.append_assoc]
  exact ⟨_, rfl⟩

/-! ## The line of the problem -/

theorem length_plainWindow {l : Location} {number : Int} (below : l.line < number)
    (lines : List Source) :
    (plainWindow l number lines).length = min (l.line + context + 1 - number).toNat lines.length := by
  induction lines generalizing number with
  | nil => simp [plainWindow]
  | cons line rest ih =>
    rw [plainWindow, List.length_append, ih (by omega), if_neg (show number ≠ l.line by omega)]
    have wide : context = 2 := rfl
    by_cases near : l.line - context ≤ number ∧ number ≤ l.line + context
    · rw [if_pos near, List.length_singleton, List.length_cons]
      omega
    · rw [if_neg near, List.length_nil, List.length_cons]
      omega

theorem plainWindow_of_found {l : Location} {lines : List Source} {i : Nat} {line : Source}
    (found : lines[i]? = some line) (number : Int) (here : number + i = l.line) :
    ∃ above below, plainWindow l number lines =
        above ++ (beside l.line ++ line) :: plainMarks l :: below ∧
      below.length = min 2 (lines.length - (i + 1)) := by
  induction lines generalizing i number with
  | nil => cases found
  | cons first rest ih =>
    cases i with
    | zero =>
      obtain rfl := Option.some.inj found
      obtain rfl : number = l.line := by omega
      have near : l.line - context ≤ l.line ∧ l.line ≤ l.line + context := by
        simp only [context]
        omega
      refine ⟨[], plainWindow l (l.line + 1) rest, ?_, ?_⟩
      · simp only [plainWindow, if_pos near, if_true, List.nil_append, List.cons_append]
      · rw [length_plainWindow (by omega), context]
        simp only [List.length_cons]
        omega
    | succ i =>
      obtain ⟨above, below, shown, count⟩ := ih found (number + 1) (by omega)
      refine ⟨_, below, by rw [plainWindow, shown, ← List.append_assoc], ?_⟩
      rw [count, List.length_cons]
      omega

/-- What stands beside a line is as wide as it is taken for when the number has up to three digits,
and wider otherwise. -/
theorem length_beside_iff {number : Int} (positive : 1 ≤ number) :
    (beside number).length = 7 ↔ number < 1000 := by
  have short : (toString number).toList.length ≤ 3 ↔ number < 1000 := by
    rw [Text.intChars_of_nonneg (by omega), Nat.length_toDigits_le_iff (by decide) (by decide)]
    omega
  have width : (beside number).length = 4 + max 3 (toString number).toList.length := by
    have blank : " ".length = 1 := rfl
    have bar : " | ".length = 3 := rfl
    simp only [beside, Source.ofString, padLeft, String.toList_append, String.toList_ofList,
      List.length_map, List.length_append, List.length_replicate, String.length_toList]
    omega
  rw [width, ← short]
  omega

end Excerpt

namespace Report

open Excerpt (beside)

/-- The plain text of a report has the line of the problem beside its number, and the marks under
it. -/
theorem exists_lines_plain {problem : Problem} {l : Location} {source line : Source}
    (located : problem.loc = some l) (quiet : Terminal.Quiet source) (first : 1 ≤ l.line)
    (found : source.lines[(l.line - 1).toNat]? = some line) :
    ∃ above below : List Source, (Report.plain ⟨problem, some source⟩).lines =
        above ++ (beside l.line ++ line) :: Excerpt.plainMarks l :: below ∧
      below.length = min 2 (source.lines.length - l.line.toNat) + 2 := by
  obtain ⟨inside, -⟩ := List.getElem?_eq_some_iff.1 found
  have plain : Report.plain ⟨problem, some source⟩ =
      Terminal.strip (Excerpt.styled problem.message l source) := by
    simp only [Report.plain, Report.styled, located]
  obtain ⟨top, lines⟩ :=
    Excerpt.lines_strip_styled (l := l) problem.message quiet first (by omega)
  obtain ⟨above, below, shown, count⟩ := Excerpt.plainWindow_of_found (l := l) found 1 (by omega)
  refine ⟨top ++ above, below ++ [Excerpt.closingBar, []], ?_, ?_⟩
  · rw [plain, lines, shown]
    simp only [List.append_assoc, List.cons_append]
  · rw [List.length_append, count]
    simp only [List.length_cons, List.length_nil]
    omega

/-- In the plain text of a report, the line under the line of the problem consists of blanks and then
of carets. The first caret is as far from the margin as the glyph at the column of the problem if and
only if the number of the line has up to three digits. -/
theorem plain_marks {problem : Problem} {l : Location} {source line : Source}
    (located : problem.loc = some l) (quiet : Terminal.Quiet source) (first : 1 ≤ l.line)
    (found : source.lines[(l.line - 1).toNat]? = some line) (column : 1 ≤ l.col) :
    ∃ above below : List Source, ∃ blanks carets : Nat,
      (Report.plain ⟨problem, some source⟩).lines = above ++ (beside l.line ++ line) ::
        (List.replicate blanks (.char ' ') ++ List.replicate carets (.char '^')) :: below ∧
      below.length = min 2 (source.lines.length - l.line.toNat) + 2 ∧ 0 < carets ∧
      (blanks = (beside l.line).length + (l.col - 1).toNat ↔ l.line < 1000) := by
  obtain ⟨above, below, lines, count⟩ := exists_lines_plain located quiet first found
  refine ⟨above, below, (l.col + 6).toNat, (max 1 l.len).toNat, lines, count, by omega, ?_⟩
  rw [← Excerpt.length_beside_iff first]
  omega

/-- A problem at the head of the form `(f)`, which some empty lines come before. -/
def headless (empty : Nat) : Report :=
  ⟨Fault.at (.unknownSymbol "f") ⟨"sample", empty + 1, 2, 1, none⟩,
    some (List.replicate empty Source.newline ++ Source.ofString "(f)")⟩

theorem quiet_headless (empty : Nat) :
    Terminal.Quiet (List.replicate empty Source.newline ++ Source.ofString "(f)") := by
  refine .append ?_ (Excerpt.Visible.quiet (by decide))
  intro g hg
  exact ⟨'\n', List.eq_of_mem_replicate hg, by decide⟩

theorem plain_marks_headless : ∃ above below : List Source, ∃ blanks carets : Nat,
    (headless 2).plain.lines = above ++ (beside 3 ++ Source.ofString "(f)") ::
      (List.replicate blanks (.char ' ') ++ List.replicate carets (.char '^')) :: below ∧
    below.length = 2 ∧ 0 < carets ∧ blanks = (beside 3).length + 1 := by
  have located : (headless 2).problem.loc = some ⟨"sample", 3, 2, 1, none⟩ := rfl
  obtain ⟨above, below, blanks, carets, lines, count, some_carets, offset⟩ :=
    plain_marks located (quiet_headless 2) (by decide)
      (show _ = some (Source.ofString "(f)") by decide +kernel) (by decide)
  exact ⟨above, below, blanks, carets, lines, count, some_carets, offset.2 (by decide)⟩

/-- On line 1000 the mark is one glyph to the left of the head of the form. -/
theorem caret_falls_behind : ∃ above below : List Source, ∃ shown marks : Source,
    (headless 999).plain.lines = above ++ shown :: marks :: below ∧ below.length = 2 ∧
    shown = Source.ofString " 1000 | (f)" ∧ shown[9]? = some (.char 'f') ∧
    marks = Source.ofString "        ^" ∧ marks.idxOf (.char '^') = 8 := by
  have located : (headless 999).problem.loc = some ⟨"sample", 1000, 2, 1, none⟩ := rfl
  obtain ⟨above, below, lines, count⟩ :=
    exists_lines_plain located (quiet_headless 999) (by decide)
      (show _ = some (Source.ofString "(f)") by decide +kernel)
  refine ⟨above, below, _, _, lines, ?_, by decide +kernel, by decide +kernel, by decide +kernel,
    by decide +kernel⟩
  rw [count]
  decide +kernel

end Report

end LittleLisp
