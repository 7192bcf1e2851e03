import LittleLisp.Uri.Byte

/-!
# Numeric addresses of hosts

A host may be given by its numeric address: four decimal numbers with points between them, or eight
hexadecimal groups with colons between them. Two colons stand for one or more groups of zeros, the
last two groups may be written as four decimal numbers, and a zone may follow a percent sign.
-/

namespace LittleLisp.Uri.Literal

/-- What is wrong with a numeric address. -/
inductive Reason where
  | noAddress
  | onlyZone
  | emptyZone
  | longGroup
  | noDigit
  | misplacedFour
  | noRoomForFour
  | noColon
  | openColon
  | secondGap
  | garbage
  | short
  | needlessGap
  | leadingZero
  | largeNumber
  | emptyNumber
  | tooManyNumbers
  | strange
  | tooFewNumbers
deriving DecidableEq, Repr

/-- What is wrong with a numeric address, and the rest of the text where it shows. -/
structure Flaw where
  reason : Reason
  place : List UInt8 := []
deriving DecidableEq, Repr

/-- What is said about a text that is no numeric address. -/
def Flaw.message (f : Flaw) : String :=
  match f.reason with
  | .noAddress => "unable to parse IP"
  | .onlyZone => "missing IPv6 address"
  | .emptyZone => "zone must be a non-empty string"
  | .longGroup => "each group must have 4 or less digits"
  | .noDigit => "each colon-separated field must have at least one digit"
  | .misplacedFour => "embedded IPv4 address must replace the final 2 fields of the address"
  | .noRoomForFour => "too many hex fields to fit an embedded IPv4 at the end of the address"
  | .noColon => "unexpected character, want colon"
  | .openColon => "colon must be followed by more characters"
  | .secondGap => "multiple :: in address"
  | .garbage => "trailing garbage after address"
  | .short => "address string too short"
  | .needlessGap => "the :: must expand to at least one field of zeros"
  | .leadingZero => "IPv4 field has octet with leading zero"
  | .largeNumber => "IPv4 field has value >255"
  | .emptyNumber => "IPv4 field must have at least one digit"
  | .tooManyNumbers => "IPv4 address too long"
  | .strange => "unexpected character"
  | .tooFewNumbers => "IPv4 address too short"

/-- The kinds of numeric addresses. -/
inductive Kind where
  | four
  | six
deriving DecidableEq, Repr

/-- Reads four decimal numbers: `points` have been seen, the last byte was one if `fresh`, and the
number so far has `digits` and a value. -/
def readFour (points digits value : Nat) (fresh : Bool) : List UInt8 → Except Flaw Unit
  | [] => if points < 3 then .error ⟨.tooFewNumbers, []⟩ else .ok ()
  | b :: rest =>
    if isDigit b then
      if digits = 1 ∧ value = 0 then .error ⟨.leadingZero, []⟩
      else
        let value := value * 10 + (b.toNat - 48)
        if 255 < value then .error ⟨.largeNumber, []⟩
        else readFour points (digits + 1) value false rest
    else if b = byteOf '.' then
      if fresh ∨ rest.isEmpty then .error ⟨.emptyNumber, b :: rest⟩
      else if points = 3 then .error ⟨.tooManyNumbers, []⟩
      else readFour (points + 1) 0 0 true rest
    else .error ⟨.strange, b :: rest⟩

/-- All groups have been read, and `left` are missing: a gap stands for them. -/
def closeGroups (left : Nat) (gap : Bool) : Except Flaw Unit :=
  if left = 0 then if gap then .error ⟨.needlessGap, []⟩ else .ok ()
  else if gap then .ok ()
  else .error ⟨.short, []⟩

/-- Reads hexadecimal groups, of which there may be `left`; `gap` says whether two colons came
before. -/
def readGroups : (left : Nat) → (gap : Bool) → List UInt8 → Except Flaw Unit
  | 0, _, text => .error ⟨.garbage, text⟩
  | left + 1, gap, text =>
    let isHex (b : UInt8) := (hexDigit? b).isSome
    let digits := text.takeWhile isHex
    let rest := text.dropWhile isHex
    if 4 < digits.length then .error ⟨.longGroup, text⟩
    else if digits.isEmpty then .error ⟨.noDigit, text⟩
    else
      match rest with
      | [] => closeGroups left gap
      | b :: more =>
        if b = byteOf '.' then
          if !gap && left != 1 then .error ⟨.misplacedFour, text⟩
          else if left = 0 then .error ⟨.noRoomForFour, text⟩
          else
            match readFour 0 0 0 true text with
            | .error e => .error e
            | .ok () => closeGroups (left - 1) gap
        else if b ≠ byteOf ':' then .error ⟨.noColon, rest⟩
        else
          match more with
          | [] => .error ⟨.openColon, rest⟩
          | next :: behind =>
            if next ≠ byteOf ':' then readGroups left gap more
            else if gap then .error ⟨.secondGap, more⟩
            else if behind.isEmpty then closeGroups left true
            else readGroups left true behind

/-- Reads the hexadecimal groups of an address, without its zone. -/
def readSix (text : List UInt8) : Except Flaw Unit :=
  match text with
  | a :: b :: rest =>
    if a = byteOf ':' ∧ b = byteOf ':' then
      if rest.isEmpty then .ok () else readGroups 8 true rest
    else readGroups 8 false text
  | _ => readGroups 8 false text

/-- Reads a numeric address. The first byte that is a point, a colon or a percent sign decides about
its kind. -/
def read (text : List UInt8) : Except Flaw Kind :=
  match text.find? (isOneOf ".:%") with
  | none => .error ⟨.noAddress, []⟩
  | some b =>
    if b = byteOf '.' then (readFour 0 0 0 true text).map fun _ => .four
    else if b = byteOf '%' then .error ⟨.onlyZone, []⟩
    else
      match text.dropWhile (· ≠ byteOf '%') with
      | [_] => .error ⟨.emptyZone, []⟩
      | _ => (readSix (text.takeWhile (· ≠ byteOf '%'))).map fun _ => .six

end LittleLisp.Uri.Literal
