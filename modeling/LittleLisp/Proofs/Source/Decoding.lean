import LittleLisp.Proofs.Source.Utf8
import LittleLisp.Proofs.Text.Numeral
import Mathlib.Data.List.Basic

/-!
# Bytes as glyphs

Reading bytes as glyphs loses nothing: the glyphs have the bytes that came in (`bytes_ofBytes`). A
character takes only continuation bytes after its first one, so what comes before any other byte is
read in the same way whatever follows (`ofBytes_append`). A newline is such a byte: lines are the
same in bytes and in glyphs (`lines_ofBytes`), and so is their number (`count_newline_ofBytes`).

Not every sequence of glyphs is read from bytes, since stray bytes could make up a character. A
piece of one that is read from bytes is read from its own bytes (`IsRead.left`, `IsRead.right`).
-/

namespace LittleLisp

namespace Glyph

/-! ## Characters of several bytes -/

theorem isContinuation_iff {b : UInt8} :
    isContinuation b = true ↔ 0x80 ≤ b.toNat ∧ b.toNat < 0xc0 := by
  simp [isContinuation]

theorem eq_ofNat {b : UInt8} {n : Nat} (h : b.toNat = n) : b = UInt8.ofNat n := by
  rw [← h, UInt8.ofNat_toNat]

/-- A longer character is the value of its bytes, all of which are there. -/
theorem longChar?_eq_some {count bits least : Nat} {rest : List UInt8} {c : Char}
    (h : longChar? count bits least rest = some c) :
    (rest.take count).length = count ∧ (∀ b ∈ rest.take count, isContinuation b = true) ∧
      least ≤ c.toNat ∧ scalarValue bits (rest.take count) = c.toNat := by
  simp only [longChar?] at h
  split at h
  · next ok =>
    obtain ⟨long, continued, big, valid⟩ := ok
    obtain rfl := Option.some.inj h
    rw [Text.toNat_ofNat valid]
    exact ⟨long, List.all_eq_true.1 continued, big, rfl⟩
  · cases h

/-- A character is read from its bytes: the first one, and continuation bytes. -/
theorem leadingChar?_eq_some {b : UInt8} {rest : List UInt8} {c : Char} {taken : Nat}
    (h : leadingChar? b rest = some (c, taken)) :
    (rest.take taken).length = taken ∧ (∀ x ∈ rest.take taken, isContinuation x = true) ∧
      String.utf8EncodeChar c = b :: rest.take taken := by
  have code : c.val.toNat = c.toNat := rfl
  have byte := b.toNat_lt
  simp only [leadingChar?] at h
  split at h
  · next ascii =>
    obtain ⟨rfl, rfl⟩ := Prod.mk.inj (Option.some.inj h)
    have value : (Char.ofNat b.toNat).toNat = b.toNat := Text.toNat_ofNat (.inl (by omega))
    refine ⟨rfl, by simp, ?_⟩
    simp only [String.utf8EncodeChar, code, value]
    rw [if_pos (by omega), List.take_zero, UInt8.ofNat_toNat]
  split at h
  · cases h
  -- The value of a character gives back its bytes, since each but the first carries six bits.
  split at h
  · obtain ⟨_, read, same⟩ := Option.map_eq_some_iff.1 h
    obtain ⟨rfl, rfl⟩ := Prod.mk.inj same
    obtain ⟨long, continued, big, value⟩ := longChar?_eq_some read
    refine ⟨long, continued, ?_⟩
    obtain ⟨x, shape⟩ := List.length_eq_one_iff.1 long
    rw [shape] at continued value ⊢
    have first := isContinuation_iff.1 (continued x (by simp))
    simp only [scalarValue, List.foldl] at value
    simp only [String.utf8EncodeChar, code]
    rw [if_neg (by omega), if_pos (by omega), ← eq_ofNat (b := b) (by omega),
      ← eq_ofNat (b := x) (by omega)]
  split at h
  · obtain ⟨_, read, same⟩ := Option.map_eq_some_iff.1 h
    obtain ⟨rfl, rfl⟩ := Prod.mk.inj same
    obtain ⟨long, continued, big, value⟩ := longChar?_eq_some read
    refine ⟨long, continued, ?_⟩
    obtain ⟨x, y, shape⟩ := List.length_eq_two.1 long
    rw [shape] at continued value ⊢
    have first := isContinuation_iff.1 (continued x (by simp))
    have second := isContinuation_iff.1 (continued y (by simp))
    simp only [scalarValue, List.foldl] at value
    simp only [String.utf8EncodeChar, code]
    rw [if_neg (by omega), if_neg (by omega), if_pos (by omega), ← eq_ofNat (b := b) (by omega),
      ← eq_ofNat (b := x) (by omega), ← eq_ofNat (b := y) (by omega)]
  split at h
  · obtain ⟨_, read, same⟩ := Option.map_eq_some_iff.1 h
    obtain ⟨rfl, rfl⟩ := Prod.mk.inj same
    obtain ⟨long, continued, big, value⟩ := longChar?_eq_some read
    refine ⟨long, continued, ?_⟩
    obtain ⟨x, y, z, shape⟩ := List.length_eq_three.1 long
    rw [shape] at continued value ⊢
    have first := isContinuation_iff.1 (continued x (by simp))
    have second := isContinuation_iff.1 (continued y (by simp))
    have third := isContinuation_iff.1 (continued z (by simp))
    simp only [scalarValue, List.foldl] at value
    simp only [String.utf8EncodeChar, code]
    rw [if_neg (by omega), if_neg (by omega), if_neg (by omega), ← eq_ofNat (b := b) (by omega),
      ← eq_ofNat (b := x) (by omega), ← eq_ofNat (b := y) (by omega),
      ← eq_ofNat (b := z) (by omega)]
  · cases h

/-! ## What follows a character -/

/-- What follows is no part of a character that starts before it. -/
def Starts (rest : List UInt8) : Prop :=
  ∀ b ∈ rest.head?, isContinuation b = false

theorem longChar?_append {count bits least : Nat} {rest more : List UInt8} (starts : Starts more) :
    longChar? count bits least (rest ++ more) = longChar? count bits least rest := by
  by_cases long : count ≤ rest.length
  · simp only [longChar?, List.take_append_of_le_length long]
  · have short : longChar? count bits least rest = none := by
      rw [longChar?, if_neg]
      rintro ⟨whole, -⟩
      rw [List.length_take] at whole
      omega
    rw [short]
    cases more with
    | nil => rw [List.append_nil, short]
    | cons b more =>
      -- The byte that follows would have to be a part of the character.
      rw [longChar?, if_neg]
      rintro ⟨-, continued, -⟩
      have part : b ∈ (rest ++ b :: more).take count := by
        rw [List.take_append, List.mem_append, show count - rest.length =
          (count - rest.length - 1) + 1 by omega, List.take_succ_cons]
        simp
      have other := starts b rfl
      rw [List.all_eq_true.1 continued b part] at other
      cases other

/-- Bytes that are read as a character are read as that character before any others. -/
theorem leadingChar?_append_of_some {b : UInt8} {rest : List UInt8} {c : Char} {taken : Nat}
    (h : leadingChar? b rest = some (c, taken)) (more : List UInt8) :
    leadingChar? b (rest ++ more) = some (c, taken) := by
  obtain ⟨long, -, encoded⟩ := leadingChar?_eq_some h
  obtain ⟨first, tail, shape, read⟩ := leadingChar?_utf8EncodeChar c (rest.drop taken ++ more)
  rw [encoded] at shape
  obtain ⟨rfl, rfl⟩ := List.cons.inj shape
  rwa [← List.append_assoc, List.take_append_drop, long] at read

theorem leadingChar?_append {b : UInt8} {rest more : List UInt8} (starts : Starts more) :
    leadingChar? b (rest ++ more) = leadingChar? b rest := by
  simp only [leadingChar?, longChar?_append starts]

end Glyph

namespace Source

open Glyph (Starts)

/-- Reading bytes loses nothing. -/
@[simp] theorem bytes_ofBytes (bytes : List UInt8) : (ofBytes bytes).bytes = bytes := by
  induction bytes using ofBytes.induct with
  | case1 => simp [ofBytes]
  | case2 b rest c taken read ih =>
    obtain ⟨-, -, encoded⟩ := Glyph.leadingChar?_eq_some read
    rw [ofBytes, read]
    simp only [bytes, List.flatMap_cons, Glyph.bytes, encoded] at ih ⊢
    rw [ih, List.cons_append, List.take_append_drop]
  | case3 b rest none ih =>
    rw [ofBytes, none]
    simp only [bytes, List.flatMap_cons, Glyph.bytes] at ih ⊢
    rw [ih, List.singleton_append]

/-- What comes before a byte that starts something new is read by itself. -/
theorem ofBytes_append (bytes : List UInt8) {more : List UInt8} (starts : Starts more) :
    ofBytes (bytes ++ more) = ofBytes bytes ++ ofBytes more := by
  induction bytes using ofBytes.induct with
  | case1 => rw [List.nil_append, ofBytes, List.nil_append]
  | case2 b rest c taken read ih =>
    have long := (Glyph.leadingChar?_eq_some read).1
    rw [List.length_take] at long
    rw [List.cons_append, ofBytes, ofBytes, Glyph.leadingChar?_append starts, read]
    simp only [List.drop_append_of_le_length (show taken ≤ rest.length by omega), ih,
      List.cons_append]
  | case3 b rest none ih =>
    rw [List.cons_append, ofBytes, ofBytes, Glyph.leadingChar?_append starts, none]
    simp only [ih, List.cons_append]

/-! ## Pieces of a source -/

/-- A source is read from its own bytes. -/
def IsRead (s : Source) : Prop :=
  ofBytes s.bytes = s

theorem isRead_ofBytes (bytes : List UInt8) : IsRead (ofBytes bytes) := by
  rw [IsRead, bytes_ofBytes]

theorem ofBytes_bytes_char (c : Char) (s : Source) :
    ofBytes (bytes (.char c :: s)) = .char c :: ofBytes s.bytes := by
  obtain ⟨b, tail, shape, read⟩ := Glyph.leadingChar?_utf8EncodeChar c s.bytes
  have whole : bytes (.char c :: s) = b :: (tail ++ s.bytes) := by
    rw [bytes, List.flatMap_cons, Glyph.bytes, shape, List.cons_append]
    rfl
  rw [whole, ofBytes, read]
  simp only [List.drop_left]

/-- The first glyph of what is read can be taken off. -/
theorem IsRead.tail {g : Glyph} {s : Source} (h : IsRead (g :: s)) : IsRead s := by
  cases g with
  | char c =>
    rw [IsRead, ofBytes_bytes_char] at h
    exact (List.cons.inj h).2
  | stray b =>
    have whole : bytes (.stray b :: s) = b :: s.bytes := rfl
    rw [IsRead, whole, ofBytes] at h
    split at h
    · cases h
    · exact (List.cons.inj h).2

theorem IsRead.right {s t : Source} (h : IsRead (s ++ t)) : IsRead t := by
  induction s with
  | nil => exact h
  | cons g s ih => exact ih h.tail

theorem IsRead.left {s t : Source} (h : IsRead (s ++ t)) : IsRead s := by
  induction s with
  | nil => rw [IsRead, bytes_nil, ofBytes]
  | cons g s ih =>
    have rest := ih h.tail
    cases g with
    | char c => rw [IsRead, ofBytes_bytes_char, rest]
    | stray b =>
      have whole (u : Source) : bytes (.stray b :: u) = b :: u.bytes := rfl
      -- What makes up no character with all that follows makes up none with less.
      have none : Glyph.leadingChar? b (bytes s) = none := by
        rw [IsRead, List.cons_append, whole, ofBytes, bytes_append] at h
        cases read : Glyph.leadingChar? b (bytes s) with
        | none => rfl
        | some found =>
          obtain ⟨c, taken⟩ := found
          rw [Glyph.leadingChar?_append_of_some read] at h
          cases h
      rw [IsRead, whole, ofBytes, none]
      exact congrArg (Glyph.stray b :: ·) rest

/-! ## Lines -/

/-- The byte that ends a line. -/
def newlineByte : UInt8 :=
  10

/-- The lines of a text in bytes, without the newlines between them. -/
def byteLines (bytes : List UInt8) : List (List UInt8) :=
  bytes.splitOn newlineByte

theorem ofBytes_newline (rest : List UInt8) :
    ofBytes (newlineByte :: rest) = newline :: ofBytes rest := by
  have read : Glyph.leadingChar? newlineByte rest = some ('\n', 0) := rfl
  rw [ofBytes, read]
  rfl

/-- The two sides of a newline are read apart. -/
theorem ofBytes_append_newline (bytes rest : List UInt8) :
    ofBytes (bytes ++ newlineByte :: rest) = ofBytes bytes ++ newline :: ofBytes rest := by
  have starts : Starts (newlineByte :: rest) := by
    intro b hb
    obtain rfl := Option.some.inj hb
    rfl
  rw [ofBytes_append bytes starts, ofBytes_newline]

theorem not_mem_ofBytes {bytes : List UInt8} (h : newlineByte ∉ bytes) :
    newline ∉ ofBytes bytes := by
  intro member
  have inside : newlineByte ∈ (ofBytes bytes).bytes :=
    List.mem_flatMap.2 ⟨newline, member, List.mem_singleton.2 rfl⟩
  rw [bytes_ofBytes] at inside
  exact h inside

/-- What holds of a last line, and of a line before what it holds of, holds of every text. -/
theorem line_induction {motive : List UInt8 → Prop}
    (last : ∀ line, newlineByte ∉ line → motive line)
    (more : ∀ line rest, newlineByte ∉ line → motive rest → motive (line ++ newlineByte :: rest))
    (bytes : List UInt8) : motive bytes := by
  induction long : bytes.length using Nat.strongRecOn generalizing bytes with
  | ind n ih =>
    by_cases inside : newlineByte ∈ bytes
    · obtain ⟨line, rest, rfl, outside⟩ := List.eq_append_cons_of_mem inside
      refine more line rest outside (ih rest.length ?_ rest rfl)
      rw [← long, List.length_append, List.length_cons]
      omega
    · exact last bytes inside

theorem count_newline_ofBytes (bytes : List UInt8) :
    (ofBytes bytes).count newline = bytes.count newlineByte := by
  induction bytes using line_induction with
  | last line outside =>
    rw [List.count_eq_zero.2 outside, List.count_eq_zero.2 (not_mem_ofBytes outside)]
  | more line rest outside ih =>
    rw [ofBytes_append_newline, List.count_append, List.count_append, List.count_cons_self,
      List.count_cons_self, ih, List.count_eq_zero.2 outside,
      List.count_eq_zero.2 (not_mem_ofBytes outside)]

theorem lines_of_not_mem {s : Source} (h : newline ∉ s) : s.lines = [s] := by
  induction s with
  | nil => rfl
  | cons g s ih =>
    simp only [List.mem_cons, not_or] at h
    rw [lines, if_neg (Ne.symm h.1), ih h.2]

theorem lines_append_newline {s : Source} (h : newline ∉ s) (t : Source) :
    (s ++ newline :: t).lines = s :: t.lines := by
  induction s with
  | nil => rw [List.nil_append, lines, if_pos rfl]
  | cons g s ih =>
    simp only [List.mem_cons, not_or] at h
    rw [List.cons_append, lines, if_neg (Ne.symm h.1), ih h.2]

/-- The lines of a text are those of its bytes. -/
theorem lines_ofBytes (bytes : List UInt8) :
    (ofBytes bytes).lines = (byteLines bytes).map ofBytes := by
  have plain {line : List UInt8} (outside : newlineByte ∉ line) :
      ∀ b ∈ line, (b == newlineByte) = false := by
    intro b hb
    rw [beq_eq_false_iff_ne]
    rintro rfl
    exact outside hb
  induction bytes using line_induction with
  | last line outside =>
    rw [lines_of_not_mem (not_mem_ofBytes outside), byteLines, List.splitOn,
      List.splitOnP_eq_singleton (plain outside), List.map_singleton]
  | more line rest outside ih =>
    have split : byteLines (line ++ newlineByte :: rest) = line :: byteLines rest :=
      List.splitOnP_append_cons_of_forall_mem (plain outside) _ (beq_self_eq_true _) rest
    rw [ofBytes_append_newline, lines_append_newline (not_mem_ofBytes outside), ih, split,
      List.map_cons]

end Source

end LittleLisp
