import LittleLisp.Proofs.C.Name
import LittleLisp.Proofs.Source.Decoding

/-!
# Spelling any text

A name may be any bytes: its characters are spelled, with U+FFFD for a byte that belongs to none. A
C identifier has no such byte, since U+FFFD may not stand in one, and it is kept byte for byte. So the
spelling is a C identifier, names are kept exactly if they are C identifiers, and spelling twice is
spelling once (`spelling_of_bytes`).
-/

namespace LittleLisp

namespace Source

theorem toText_ofString (text : String) : (ofString text).toText = text := by
  have runes : text.toList.map (Glyph.rune ∘ Glyph.char) = text.toList := List.map_id _
  rw [toText, ofString, List.map_map, runes, String.ofList_toList]

theorem ofBytes_bytes_ofString (text : String) : ofBytes (ofString text).bytes = ofString text := by
  have encoded : (ofString text).bytes = text.toList.flatMap String.utf8EncodeChar := by
    rw [bytes, ofString, List.flatMap_map]
    rfl
  rw [encoded, ofBytes_flatMap_utf8EncodeChar, ofString]

/-- A source is its own text if no glyph of it reads as U+FFFD. -/
theorem ofString_toText {s : Source} (h : Char.ofNat 0xfffd ∉ s.toText.toList) :
    ofString s.toText = s := by
  rw [toText, String.toList_ofList] at h
  have own (g : Glyph) (hg : g ∈ s) : (Glyph.char ∘ Glyph.rune) g = g := by
    cases g with
    | char c => rfl
    | stray b => exact absurd (List.mem_map_of_mem hg) h
  rw [ofString, toText, String.toList_ofList, List.map_map, List.map_congr_left own, List.map_id']

end Source

namespace C

/-- The C spelling of a name in bytes. -/
def spellBytes (name : List UInt8) : List UInt8 :=
  (Source.ofString (spell (Source.ofBytes name).toText)).bytes

/-- The bytes of a C identifier. -/
def IsIdentifierBytes (name : List UInt8) : Prop :=
  isIdentifier (Source.ofBytes name).toText.toList = true

/-- The bytes of a text are spelled like the text. -/
theorem spellBytes_bytes (name : String) :
    spellBytes (Source.ofString name).bytes = (Source.ofString (spell name)).bytes := by
  rw [spellBytes, Source.ofBytes_bytes_ofString, Source.toText_ofString]

theorem not_mem_of_isIdentifier {name : List Char} (h : isIdentifier name = true) {c : Char}
    (other : isNamePart c = false) : c ∉ name := by
  cases name with
  | nil => cases h
  | cons first rest =>
    rw [isIdentifier, Bool.and_eq_true, List.all_eq_true] at h
    intro inside
    rcases List.mem_cons.1 inside with rfl | later
    · exact absurd (isNamePart_of_isNameStart h.1) (by simp [other])
    · exact absurd (h.2 c later) (by simp [other])

theorem isIdentifierBytes_spellBytes (name : List UInt8) : IsIdentifierBytes (spellBytes name) := by
  rw [IsIdentifierBytes, spellBytes, Source.ofBytes_bytes_ofString, Source.toText_ofString]
  exact isIdentifier_spell _

/-- The bytes of a C identifier are kept. -/
theorem spellBytes_of_isIdentifier {name : List UInt8} (h : IsIdentifierBytes name) :
    spellBytes name = name := by
  have plain : Char.ofNat 0xfffd ∉ (Source.ofBytes name).toText.toList :=
    not_mem_of_isIdentifier h (by decide)
  rw [spellBytes, spell_of_isIdentifier h, Source.ofString_toText plain, Source.bytes_ofBytes]

/-- **Spelling.** The C spelling of any bytes is a C identifier. It is the same as the bytes exactly
if these are a C identifier. So a spelling is spelled as itself. -/
theorem spelling_of_bytes (name : List UInt8) :
    IsIdentifierBytes (spellBytes name) ∧ (spellBytes name = name ↔ IsIdentifierBytes name) ∧
      spellBytes (spellBytes name) = spellBytes name := by
  have legal := isIdentifierBytes_spellBytes name
  refine ⟨legal, ⟨fun kept => ?_, spellBytes_of_isIdentifier⟩, spellBytes_of_isIdentifier legal⟩
  rw [kept] at legal
  exact legal

end C

end LittleLisp
