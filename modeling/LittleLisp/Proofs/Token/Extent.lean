import LittleLisp.Proofs.Token.Order

/-!
# How far tokens reach

A token has the place of its first glyph and a length, and so it seems to end on the line that it
starts on. The lexer counts the glyphs of a token, but the bytes of a string. So the length leads behind
the last glyph exactly if the token is on one line and its length is its number of glyphs
(`finish_behind_iff`). Of the tokens, only strings and character constants can have a newline inside,
and only strings have glyphs of several bytes that are counted as such (`Takes.measured`).
-/

namespace LittleLisp

namespace Source

/-- The parenthesis before a form. -/
def openParen : Glyph := .char '('

/-- The parenthesis behind a form. -/
def closeParen : Glyph := .char ')'

theorem size_eq_length {s : Source} (h : ∀ g ∈ s, g.size = 1) : s.size = s.length := by
  induction s with
  | nil => rfl
  | cons g s ih =>
    obtain ⟨first, others⟩ := List.forall_mem_cons.1 h
    rw [List.length_cons, size, first, ih others, Nat.add_comm]

theorem length_le_size (s : Source) : s.length ≤ s.size := by
  induction s with
  | nil => exact Nat.zero_le 0
  | cons g s ih =>
    have pos : 1 ≤ g.size := by
      cases g with
      | char c => exact c.utf8Size_pos
      | stray b => exact Nat.le_refl 1
    rw [List.length_cons, size]
    omega

end Source

/-! ## Places and lengths -/

namespace Location

/-- The place of something of this length that stands behind a piece of a file. -/
def behind (file : String) (before : Source) (len : Int) : Location :=
  ⟨file, (Position.start.advance before).line, (Position.start.advance before).col, len, none⟩

/-- The length of something leads behind its last glyph if it is on one line and has as many
glyphs. -/
theorem finish_behind_iff {file : String} {before piece : Source} {len : Nat} (pos : 1 ≤ len) :
    (behind file before len).finish = Position.start.advance (before ++ piece) ↔
      Source.newline ∉ piece ∧ len = piece.length := by
  have long : max 1 (len : Int) = len := Int.max_eq_right (by omega)
  have stops (p : Position) : finish ⟨file, p.line, p.col, len, none⟩ = ⟨p.line, p.col + len⟩ :=
    congrArg (fun k => Position.mk p.line (p.col + k)) long
  rw [behind, stops, Position.advance_append]
  generalize Position.start.advance before = p
  constructor
  · intro same
    have lines : p.line = p.line + piece.count Source.newline := by
      rw [← Position.line_advance, ← same]
    have outside : Source.newline ∉ piece := by
      rw [← List.count_eq_zero]
      omega
    rw [Position.advance_of_not_mem p outside] at same
    have columns := (Position.mk.inj same).2
    exact ⟨outside, by omega⟩
  · rintro ⟨outside, rfl⟩
    rw [Position.advance_of_not_mem p outside]

end Location

namespace Token

/-! ## Pieces of source -/

/-- Before `after`, the lexer takes a piece of source as a token of this value and length. -/
def Takes (piece after : Source) (v : Value) (len : Nat) : Prop :=
  ∃ first rest, piece = first :: rest ∧ step first (rest ++ after) = .token v rest.length len

/-- Before `after`, the lexer skips a piece of source. -/
def Skips (piece after : Source) : Prop :=
  ∃ first rest, piece = first :: rest ∧ step first (rest ++ after) = .skip rest.length

section Steps

variable {piece after : Source} {v : Value} {len : Nat}

theorem takes_of_step {first : Glyph} {rest : Source} {more : Nat}
    (h : step first rest = .token v more len) :
    Takes (first :: rest.take more) (rest.drop more) v len := by
  have bound := (step_of_token h).1
  refine ⟨first, rest.take more, rfl, ?_⟩
  rw [List.take_append_drop, List.length_take_of_le bound, h]

theorem skips_of_step {first : Glyph} {rest : Source} {more : Nat}
    (h : step first rest = .skip more) : Skips (first :: rest.take more) (rest.drop more) := by
  have bound := le_of_step_eq_skip h
  refine ⟨first, rest.take more, rfl, ?_⟩
  rw [List.take_append_drop, List.length_take_of_le bound, h]

/-- In a source, the lexer takes only one piece at a place. -/
theorem Takes.unique {piece' after' : Source} {v' : Value} {len' : Nat}
    (h : Takes piece after v len) (h' : Takes piece' after' v' len')
    (same : piece ++ after = piece' ++ after') : piece = piece' := by
  obtain ⟨first, rest, rfl, takes⟩ := h
  obtain ⟨first', rest', rfl, takes'⟩ := h'
  rw [List.cons_append, List.cons_append] at same
  obtain ⟨rfl, left⟩ := List.cons.inj same
  rw [left, takes'] at takes
  injection takes with _ length
  rw [List.append_inj_left left length.symm]

end Steps

/-! ## Numbers -/

theorem char_of_digitValue? {g : Glyph} {d : Nat} (h : digitValue? g = some d) :
    g.size = 1 ∧ g ≠ Source.newline := by
  unfold digitValue? at h
  split at h
  · next c =>
    split at h
    · next digit =>
      have narrow : c.val.toNat ≤ 57 := digit.2
      refine ⟨if_pos ?_, ?_⟩
      · exact (UInt32.le_iff_toNat_le).2 (by simpa using (by omega : c.val.toNat ≤ 127))
      · rintro same
        obtain rfl := Glyph.char.inj same
        exact absurd digit.1 (by decide)
    · cases h
  · cases h

theorem plain_of_digitsValue? {s : Source} {value n : Nat} (h : digitsValue? value s = some n) :
    ∀ g ∈ s, g.size = 1 ∧ g ≠ Source.newline := by
  induction s generalizing value with
  | nil => exact List.forall_mem_nil _
  | cons g s ih =>
    rw [digitsValue?] at h
    split at h
    · next d digit => exact List.forall_mem_cons.2 ⟨char_of_digitValue? digit, ih h⟩
    · cases h

theorem plain_of_magnitude? {s : Source} {n : Nat} (h : magnitude? s = some n) :
    ∀ g ∈ s, g.size = 1 ∧ g ≠ Source.newline := by
  cases s with
  | nil => cases h
  | cons g s => exact plain_of_digitsValue? h

/-- A numeral is written in digits of one byte, after a sign at most. -/
theorem plain_of_numeral? {s : Source} {n : Int} (h : numeral? s = some n) :
    ∀ g ∈ s, g.size = 1 ∧ g ≠ Source.newline := by
  unfold numeral? at h
  split at h
  · next digits =>
    cases read : magnitude? digits with
    | none =>
      rw [read] at h
      cases h
    | some m => exact List.forall_mem_cons.2 ⟨⟨rfl, by decide⟩, plain_of_magnitude? read⟩
  · cases read : magnitude? s with
    | none =>
      rw [read] at h
      cases h
    | some m => exact plain_of_magnitude? read

/-! ## Lengths -/

/-- A piece of source as a token of this value, and the length that the lexer gives it. -/
inductive Measured : Value → Source → Nat → Prop where
  | opening : Measured .opening [Source.openParen] 1
  | closing : Measured .closing [Source.closeParen] 1
  | int (n : Int) {piece : Source} (line : Source.newline ∉ piece) :
      Measured (.int n) piece piece.length
  | char (c : Char) (piece : Source) : Measured (.char c) piece piece.length
  | str (s : String) (piece : Source) : Measured (.str s) piece piece.size
  | ident (name : String) {piece : Source} (line : Source.newline ∉ piece) :
      Measured (.ident name) piece piece.length

theorem Takes.measured {piece after : Source} {v : Value} {len : Nat}
    (h : Takes piece after v len) : Measured v piece len := by
  obtain ⟨first, rest, rfl, takes⟩ := h
  have own : (rest ++ after).take rest.length = rest := List.take_left
  obtain ⟨rfl, rfl, none, rfl⟩ | ⟨rfl, rfl, none, rfl⟩ | string | character | number | ⟨-, ident⟩ :=
    step_token_cases takes
  · obtain rfl := List.length_eq_zero_iff.1 none
    exact .opening
  · obtain rfl := List.length_eq_zero_iff.1 none
    exact .closing
  · obtain ⟨⟨s, rfl⟩, rfl⟩ := stringStep_eq_token string
    rw [own]
    exact .str s _
  · obtain ⟨⟨c, rfl⟩, rfl⟩ := charStep_eq_token character
    exact .char c (first :: rest)
  · obtain ⟨-, ⟨n, rfl, read⟩, rfl⟩ := numberStep_eq_token number
    rw [own] at read ⊢
    have plain := plain_of_numeral? read
    rw [Source.size_eq_length fun g hg => (plain g hg).1]
    exact .int n fun inside => (plain _ inside).2 rfl
  · obtain ⟨name, rfl⟩ : ∃ name, v = .ident name := by
      injection ident with name
      exact ⟨_, name.symm⟩
    have line := newline_not_mem_of_ident takes
    rw [own] at line
    obtain ⟨-, -, rfl⟩ := step_eq_ident takes
    exact .ident name line

/-- No token is empty. -/
theorem Takes.pos {piece after : Source} {v : Value} {len : Nat} (h : Takes piece after v len) :
    1 ≤ len := by
  have nonempty : 1 ≤ piece.length := by
    obtain ⟨first, rest, rfl, -⟩ := h
    exact Nat.succ_le_succ (Nat.zero_le _)
  cases h.measured with
  | opening | closing => exact Nat.le_refl 1
  | int | char | ident => exact nonempty
  | str s => exact nonempty.trans piece.length_le_size

end Token

end LittleLisp
