import LittleLisp.Proofs.Source.Decoding
import LittleLisp.Terminal

/-!
# Styled text without its styles

`strip` goes through a text byte by byte. Characters other than escapes go through as they are, a
sequence that switches a style on or off leaves nothing, and after either of them no sequence is
open (`Shows`). So the pieces of a text can be stripped one by one, and a line in a style is stripped
to that line (`shows_paint`).
-/

namespace LittleLisp.Terminal

/-- The mode after some bytes. -/
def modeAfter (mode : Mode) (bytes : List UInt8) : Mode :=
  bytes.foldl (fun m b => (advance m b.toNat).1) mode

theorem modeAfter_append (mode : Mode) (a b : List UInt8) :
    modeAfter mode (a ++ b) = modeAfter (modeAfter mode a) b :=
  List.foldl_append

theorem stripFrom_append (mode : Mode) (a b : List UInt8) :
    stripFrom mode (a ++ b) = stripFrom mode a ++ stripFrom (modeAfter mode a) b := by
  induction a generalizing mode with
  | nil => rfl
  | cons byte rest ih =>
    simp only [List.cons_append, stripFrom, ih]
    split <;> rfl

/-! ## Characters -/

theorem advance_ground_ascii {n : Nat} (ascii : n < 0x80) (quiet : n ≠ 0x1b) :
    advance .ground n = (.ground, true) := by
  have table : ∀ n < 0x80, n ≠ 0x1b → advance .ground n = (.ground, true) := by decide +kernel
  exact table n ascii quiet

/-- The first byte of a longer character says how many bytes follow it. -/
theorem advance_ground_lead {n : Nat} (above : 0xc2 ≤ n) (below : n ≤ 0xf4) :
    advance .ground n = (.longChar (if n ≤ 0xdf then 1 else if n ≤ 0xef then 2 else 3), true) := by
  have table : ∀ n < 0x100, 0xc2 ≤ n → n ≤ 0xf4 → advance .ground n =
      (.longChar (if n ≤ 0xdf then 1 else if n ≤ 0xef then 2 else 3), true) := by decide +kernel
  exact table n (by omega) above below

theorem stripFrom_longChar {left : Nat} {bytes : List UInt8} (all : bytes.length = left + 1) :
    stripFrom (.longChar (left + 1)) bytes = bytes ∧
      modeAfter (.longChar (left + 1)) bytes = .ground := by
  induction left generalizing bytes with
  | zero =>
    obtain ⟨b, rfl⟩ := List.length_eq_one_iff.1 all
    exact ⟨rfl, rfl⟩
  | succ left ih =>
    cases bytes with
    | nil => cases all
    | cons b rest =>
      have next : advance (.longChar (left + 1 + 1)) b.toNat = (.longChar (left + 1), true) := by
        simp [advance]
      obtain ⟨kept, ended⟩ := ih (by simpa using all)
      simp only [stripFrom, modeAfter, List.foldl_cons, next, if_true] at kept ended ⊢
      exact ⟨by rw [kept], ended⟩

/-- A longer character goes through as it is. -/
theorem stripFrom_lead {lead : UInt8} {tail : List UInt8} {k : Nat} (above : 0xc2 ≤ lead.toNat)
    (below : lead.toNat ≤ 0xf4)
    (count : (if lead.toNat ≤ 0xdf then 1 else if lead.toNat ≤ 0xef then 2 else 3) = k + 1)
    (all : tail.length = k + 1) :
    stripFrom .ground (lead :: tail) = lead :: tail ∧ modeAfter .ground (lead :: tail) = .ground := by
  have next := advance_ground_lead above below
  obtain ⟨kept, ended⟩ := stripFrom_longChar all
  rw [count] at next
  simp only [stripFrom, modeAfter, List.foldl_cons, next, if_true] at kept ended ⊢
  exact ⟨by rw [kept], ended⟩

/-- A character that is no escape goes through as it is. -/
theorem stripFrom_char {c : Char} (quiet : c.toNat ≠ 0x1b) :
    stripFrom .ground (String.utf8EncodeChar c) = String.utf8EncodeChar c ∧
      modeAfter .ground (String.utf8EncodeChar c) = .ground := by
  have most := Glyph.toNat_lt c
  have code : c.val.toNat = c.toNat := rfl
  simp only [String.utf8EncodeChar, code]
  split
  · next small =>
    have byte : (UInt8.ofNat c.toNat).toNat = c.toNat := by
      rw [UInt8.toNat_ofNat']
      omega
    have next := advance_ground_ascii (by omega) quiet
    simp only [stripFrom, modeAfter, List.foldl_cons, List.foldl_nil, byte, next, if_true, and_self]
  split
  · next low high =>
    have lead : (UInt8.ofNat (c.toNat / 64 % 0x20 + 0xc0)).toNat = c.toNat / 64 + 0xc0 := by
      rw [UInt8.toNat_ofNat']
      omega
    apply stripFrom_lead (k := 0) (by omega) (by omega) _ rfl
    rw [if_pos (by omega)]
  split
  · next low high =>
    have lead : (UInt8.ofNat (c.toNat / 4096 % 0x10 + 0xe0)).toNat = c.toNat / 4096 + 0xe0 := by
      rw [UInt8.toNat_ofNat']
      omega
    apply stripFrom_lead (k := 1) (by omega) (by omega) _ rfl
    rw [if_neg (by omega), if_pos (by omega)]
  · next low =>
    have lead : (UInt8.ofNat (c.toNat / 262144 % 0x08 + 0xf0)).toNat = c.toNat / 262144 + 0xf0 := by
      rw [UInt8.toNat_ofNat']
      omega
    apply stripFrom_lead (k := 2) (by omega) (by omega) _ rfl
    rw [if_neg (by omega), if_neg (by omega)]

/-! ## Pieces of a text -/

/-- Text of characters other than escapes. -/
def Quiet (s : Source) : Prop :=
  ∀ g ∈ s, ∃ c : Char, g = .char c ∧ c.toNat ≠ 0x1b

theorem Quiet.append {s t : Source} (first : Quiet s) (later : Quiet t) : Quiet (s ++ t) :=
  List.forall_mem_append.2 ⟨first, later⟩

/-- A styled text shows a text: this is what is left without the styles, and no sequence is open at
the end. -/
structure Shows (styled text : Source) : Prop where
  left : stripFrom .ground styled.bytes = text.bytes
  mode : modeAfter .ground styled.bytes = .ground
  quiet : Quiet text

theorem Shows.nil : Shows [] [] :=
  ⟨rfl, rfl, List.forall_mem_nil _⟩

theorem Shows.append {s t s' t' : Source} (first : Shows s t) (later : Shows s' t') :
    Shows (s ++ s') (t ++ t') where
  left := by
    rw [Source.bytes_append, stripFrom_append, first.left, first.mode, later.left,
      Source.bytes_append]
  mode := by rw [Source.bytes_append, modeAfter_append, first.mode, later.mode]
  quiet := first.quiet.append later.quiet

/-- Text without escapes shows itself. -/
theorem Quiet.shows {s : Source} (quiet : Quiet s) : Shows s s := by
  induction s with
  | nil => exact .nil
  | cons g rest ih =>
    obtain ⟨⟨c, rfl, plain⟩, later⟩ := List.forall_mem_cons.1 quiet
    obtain ⟨kept, closed⟩ := stripFrom_char plain
    have first : Shows [.char c] [.char c] := by
      refine ⟨?_, ?_, List.forall_mem_singleton.2 ⟨c, rfl, plain⟩⟩ <;>
        simpa [Source.bytes, Glyph.bytes]
    exact first.append (ih later)

theorem quiet_ofString {s : String} (plain : ∀ c ∈ s.toList, c.toNat ≠ 0x1b) :
    Quiet (Source.ofString s) := by
  intro g hg
  obtain ⟨c, hc, rfl⟩ := List.mem_map.1 hg
  exact ⟨c, rfl, plain c hc⟩

/-- Characters are read from their bytes. -/
theorem Quiet.isRead {s : Source} (quiet : Quiet s) : s.IsRead := by
  induction s with
  | nil => simp [Source.IsRead, Source.ofBytes]
  | cons g rest ih =>
    obtain ⟨⟨c, rfl, -⟩, later⟩ := List.forall_mem_cons.1 quiet
    rw [Source.IsRead, Source.ofBytes_bytes_char, ih later]

/-- What comes before a line does not matter to what the line shows, once no sequence is open. -/
theorem strip_append_newline {before styled text : Source}
    (closed : modeAfter .ground before.bytes = .ground) (shows : Shows styled text) :
    strip (before ++ Source.newline :: styled) =
      Source.ofBytes (stripFrom .ground before.bytes) ++ Source.newline :: text := by
  have ending : Source.bytes (Source.newline :: styled) = Source.newlineByte :: styled.bytes := rfl
  have kept : stripFrom .ground (Source.newlineByte :: styled.bytes) =
      Source.newlineByte :: text.bytes := by
    rw [← shows.left]
    rfl
  have read : Source.ofBytes text.bytes = text := shows.quiet.isRead
  rw [strip, Source.bytes_append, stripFrom_append, closed, ending, kept,
    Source.ofBytes_append_newline, read]

/-! ## Styles -/

/-- What switches a style on or off does not show. -/
theorem shows_sequence (style : Style) :
    Shows (Source.ofString (sequence style.code)) [] ∧ Shows (Source.ofString (sequence "")) [] := by
  have off : Shows (Source.ofString (sequence "")) [] :=
    ⟨by decide +kernel, by decide +kernel, List.forall_mem_nil _⟩
  cases style <;>
    exact ⟨⟨by decide +kernel, by decide +kernel, List.forall_mem_nil _⟩, off⟩

/-- A text on one line, with no tab. -/
def OneLine (s : String) : Prop :=
  ∀ c ∈ s.toList, c ≠ '\n' ∧ c ≠ '\t' ∧ c ≠ '\r'

/-- One line can be told by going through it. -/
instance (s : String) : Decidable (OneLine s) :=
  decidable_of_iff (s.toList.all (fun c => c ≠ '\n' ∧ c ≠ '\t' ∧ c ≠ '\r') = true)
    (by simp [OneLine])

theorem untab_of_oneLine {cs : List Char} (line : ∀ c ∈ cs, c ≠ '\n' ∧ c ≠ '\t' ∧ c ≠ '\r') :
    untab cs = cs := by
  induction cs with
  | nil => rfl
  | cons c rest ih =>
    obtain ⟨⟨-, tab, ret⟩, later⟩ := List.forall_mem_cons.1 line
    rw [untab, ih later]
    · exact fun same => tab same
    · exact fun _ same _ => ret same

theorem paint_of_oneLine {style : Style} {s : String} (line : OneLine s) :
    paint style s = sequence style.code ++ s ++ sequence "" := by
  have one : Source.lines (s.toList.map .char) = [s.toList.map .char] := by
    apply Source.lines_of_not_mem
    intro inside
    obtain ⟨c, hc, same⟩ := List.mem_map.1 inside
    exact (line c hc).1 (Glyph.char.inj same)
  have text : Source.toText (s.toList.map .char) = s := by
    simp [Source.toText, Glyph.rune, Function.comp_def]
  simp [paint, layoutLines, untab_of_oneLine line, one, text]

/-- A line in a style shows that line. -/
theorem shows_paint (style : Style) {s : String} (line : OneLine s)
    (quiet : Quiet (Source.ofString s)) :
    Shows (Source.ofString (paint style s)) (Source.ofString s) := by
  obtain ⟨on, off⟩ := shows_sequence style
  have shown := (on.append quiet.shows).append off
  simpa only [paint_of_oneLine line, Source.ofString, String.toList_append, List.map_append,
    List.nil_append, List.append_nil] using shown

/-! ## Whatever comes before -/

/-- At most three bytes of a character are to come. -/
def Mode.Near : Mode → Prop
  | longChar left => left ≤ 3
  | _ => True

theorem near_common (n : Nat) : (common n).1.Near := by
  unfold common
  repeat' split
  all_goals simp [Mode.Near]

theorem near_advance {mode : Mode} (near : mode.Near) (n : Nat) : (advance mode n).1.Near := by
  cases mode with
  | longChar left =>
    simp only [advance]
    split
    · trivial
    · simp only [Mode.Near] at near ⊢
      omega
  | ground | escape | escapeMore | csi | csiParam | csiMore | dcs | dcsParam | dcsMore | dcsText
    | osc | ignored =>
    simp only [advance]
    repeat' split
    all_goals first | exact near_common n | trivial

theorem near_modeAfter {mode : Mode} (near : mode.Near) (bytes : List UInt8) :
    (modeAfter mode bytes).Near := by
  induction bytes generalizing mode with
  | nil => exact near
  | cons b rest ih => exact ih (near_advance near b.toNat)

/-- A style that is switched on and off again leaves no sequence open, whatever comes before. -/
theorem modeAfter_styled (before : List UInt8) :
    modeAfter .ground (before ++ (Source.ofString (" " ++ paint .gutter "    |")).bytes) =
      .ground := by
  have line : OneLine "    |" := by decide
  rw [modeAfter_append, paint_of_oneLine line]
  have near : (modeAfter .ground before).Near :=
    near_modeAfter (show Mode.Near .ground from trivial) before
  generalize modeAfter .ground before = mode at near ⊢
  cases mode with
  | longChar left =>
    have few : left = 0 ∨ left = 1 ∨ left = 2 ∨ left = 3 := by
      simp only [Mode.Near] at near
      omega
    rcases few with rfl | rfl | rfl | rfl <;> decide +kernel
  | ground | escape | escapeMore | csi | csiParam | csiMore | dcs | dcsParam | dcsMore | dcsText
    | osc | ignored => decide +kernel

end LittleLisp.Terminal
