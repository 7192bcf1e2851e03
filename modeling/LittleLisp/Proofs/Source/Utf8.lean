import LittleLisp.Source

/-!
# Text as bytes

The bytes of a text are read as the characters of that text: the first byte of a character says how
many bytes follow it, and those that follow give back its scalar value.
-/

namespace LittleLisp

namespace Glyph

/-- The continuation byte that carries the last six bits of a number. -/
def following (n : Nat) : UInt8 :=
  UInt8.ofNat (n % 0x40 + 0x80)

theorem toNat_following (n : Nat) : (following n).toNat = n % 0x40 + 0x80 := by
  rw [following, UInt8.toNat_ofNat']
  omega

theorem isContinuation_following (n : Nat) : isContinuation (following n) = true := by
  simp only [isContinuation, toNat_following, Bool.and_eq_true, decide_eq_true_eq]
  omega

theorem scalarValue_following (bits : Nat) (parts : List Nat) :
    scalarValue bits (parts.map following) =
      parts.foldl (fun value n => value * 64 + n % 0x40) bits := by
  simp only [scalarValue, List.foldl_map, toNat_following, Nat.add_sub_cancel]

/-- Continuation bytes that give the value of a character are read as that character. -/
theorem longChar?_following {c : Char} {bits least : Nat} (parts : List Nat)
    (value : parts.foldl (fun value n => value * 64 + n % 0x40) bits = c.toNat)
    (big : least ≤ c.toNat) (rest : List UInt8) :
    longChar? parts.length bits least (parts.map following ++ rest) = some c := by
  have valid : c.toNat.isValidChar := c.valid
  have taken : (parts.map following ++ rest).take parts.length = parts.map following := by
    rw [List.take_append_of_le_length (by simp), List.take_of_length_le (by simp)]
  have continuation : (parts.map following).all isContinuation = true := by
    simp [isContinuation_following]
  simp only [longChar?, taken, scalarValue_following, value, List.length_map]
  rw [if_pos ⟨trivial, continuation, big, valid⟩, Char.ofNat_toNat]

theorem toNat_lt (c : Char) : c.toNat < 0x110000 := by
  have valid : c.toNat.isValidChar := c.valid
  rcases valid with small | ⟨-, large⟩
  · omega
  · exact large

/-- The bytes of a character are read as that character, before any others. -/
theorem leadingChar?_utf8EncodeChar (c : Char) (rest : List UInt8) :
    ∃ b tail, String.utf8EncodeChar c = b :: tail ∧
      leadingChar? b (tail ++ rest) = some (c, tail.length) := by
  have most := toNat_lt c
  have code : c.val.toNat = c.toNat := rfl
  simp only [String.utf8EncodeChar, code]
  -- The marks of the first byte leave room for the highest bits of the character.
  split
  · next small =>
    refine ⟨_, [], rfl, ?_⟩
    have first : (UInt8.ofNat c.toNat).toNat = c.toNat := by
      rw [UInt8.toNat_ofNat']
      omega
    simp only [leadingChar?, first]
    rw [if_pos (by omega), Char.ofNat_toNat, List.length_nil]
  split
  · next low high =>
    refine ⟨_, [c.toNat].map following, rfl, ?_⟩
    have first : (UInt8.ofNat (c.toNat / 64 % 0x20 + 0xc0)).toNat = c.toNat / 64 + 0xc0 := by
      rw [UInt8.toNat_ofNat']
      omega
    have read : longChar? 1 (c.toNat / 64) 0x80 ([c.toNat].map following ++ rest) = some c :=
      longChar?_following [c.toNat] (by simp only [List.foldl]; omega) (by omega) rest
    simp only [leadingChar?, first, Nat.add_sub_cancel, read]
    rw [if_neg (by omega), if_neg (by omega), if_pos (by omega)]
    rfl
  split
  · next low high =>
    refine ⟨_, [c.toNat / 64, c.toNat].map following, rfl, ?_⟩
    have first : (UInt8.ofNat (c.toNat / 4096 % 0x10 + 0xe0)).toNat = c.toNat / 4096 + 0xe0 := by
      rw [UInt8.toNat_ofNat']
      omega
    have read : longChar? 2 (c.toNat / 4096) 0x800
        ([c.toNat / 64, c.toNat].map following ++ rest) = some c :=
      longChar?_following [c.toNat / 64, c.toNat] (by simp only [List.foldl]; omega) (by omega) rest
    simp only [leadingChar?, first, Nat.add_sub_cancel, read]
    rw [if_neg (by omega), if_neg (by omega), if_neg (by omega), if_pos (by omega)]
    rfl
  · next low =>
    refine ⟨_, [c.toNat / 4096, c.toNat / 64, c.toNat].map following, rfl, ?_⟩
    have first : (UInt8.ofNat (c.toNat / 262144 % 0x08 + 0xf0)).toNat = c.toNat / 262144 + 0xf0 := by
      rw [UInt8.toNat_ofNat']
      omega
    have read : longChar? 3 (c.toNat / 262144) 0x10000
        ([c.toNat / 4096, c.toNat / 64, c.toNat].map following ++ rest) = some c :=
      longChar?_following [c.toNat / 4096, c.toNat / 64, c.toNat]
        (by simp only [List.foldl]; omega) (by omega) rest
    simp only [leadingChar?, first, Nat.add_sub_cancel, read]
    rw [if_neg (by omega), if_neg (by omega), if_neg (by omega), if_neg (by omega),
      if_pos (by omega)]
    rfl

end Glyph

namespace Source

/-- Characters are read from their bytes. -/
theorem ofBytes_flatMap_utf8EncodeChar (text : List Char) :
    ofBytes (text.flatMap String.utf8EncodeChar) = text.map .char := by
  induction text with
  | nil =>
    rw [List.flatMap_nil, ofBytes]
    rfl
  | cons c rest ih =>
    obtain ⟨b, tail, shape, read⟩ :=
      Glyph.leadingChar?_utf8EncodeChar c (rest.flatMap String.utf8EncodeChar)
    rw [List.flatMap_cons, shape, List.cons_append, ofBytes, read]
    simp only [List.drop_left, ih, List.map_cons]

/-- The bytes of a text are read as that text. -/
theorem ofBytes_toUTF8 (text : String) : ofBytes text.toUTF8.data.toList = ofString text := by
  have encoded : text.toUTF8.data.toList = text.toList.flatMap String.utf8EncodeChar := by
    rw [String.toUTF8_eq_toByteArray, ← String.utf8Encode_toList, List.utf8Encode,
      List.data_toByteArray]
  rw [encoded, ofBytes_flatMap_utf8EncodeChar, ofString]

end Source

end LittleLisp
