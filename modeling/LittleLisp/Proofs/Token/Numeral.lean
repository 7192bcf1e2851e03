import LittleLisp.Proofs.Token.Extent
import LittleLisp.Proofs.Token.Scan

/-!
# Numerals

A numeral is an optional minus sign and at least one digit of ASCII, of any length. The lexer reads
it as the number that it stands for if this fits in a C `int`, and else refuses it
(`lex_numeral`). There is no other way to write a number: what stands at the place of an integer token
is a numeral of this value, and wherever a digit of any script comes first, maybe after a minus sign,
the token is such an integer (`numerals_exact`).
-/

namespace LittleLisp

/-- A numeral in base ten. -/
structure Numeral where
  negative : Bool
  digits : List Char
  nonempty : digits ≠ []
  decimal : ∀ c ∈ digits, C.isDecimal c = true

namespace Numeral

/-- The text of a numeral. -/
def text (n : Numeral) : String :=
  String.ofList (if n.negative then '-' :: n.digits else n.digits)

/-- The number that a numeral stands for. -/
def value (n : Numeral) : Int :=
  if n.negative then -(Nat.ofDigitChars 10 n.digits 0 : Int) else Nat.ofDigitChars 10 n.digits 0

/-- The number fits in a C `int`. -/
def Fits (n : Numeral) : Prop :=
  -2147483648 ≤ n.value ∧ n.value ≤ 2147483647

end Numeral

namespace Token

variable {s : Source} {v : Int}

/-! ## The value of a numeral -/

theorem decimal_of_digitValue? {g : Glyph} {d : Nat} (h : digitValue? g = some d) :
    ∃ c, g = .char c ∧ C.isDecimal c = true := by
  unfold digitValue? at h
  split at h
  · next c =>
    split at h
    · next digit => exact ⟨c, rfl, by simp [C.isDecimal, digit]⟩
    · cases h
  · cases h

theorem digitsValue?_eq_some {start m : Nat} (h : digitsValue? start s = some m) :
    ∃ digits : List Char, s = digits.map .char ∧ (∀ c ∈ digits, C.isDecimal c = true) ∧
      Nat.ofDigitChars 10 digits start = m := by
  have decimals : ∃ digits : List Char, s = digits.map .char ∧
      ∀ c ∈ digits, C.isDecimal c = true := by
    induction s generalizing start with
    | nil => exact ⟨[], rfl, List.forall_mem_nil _⟩
    | cons g s ih =>
      rw [digitsValue?] at h
      split at h
      · next d digit =>
        obtain ⟨c, rfl, decimal⟩ := decimal_of_digitValue? digit
        obtain ⟨digits, rfl, others⟩ := ih h
        exact ⟨c :: digits, rfl, List.forall_mem_cons.2 ⟨decimal, others⟩⟩
      · cases h
  obtain ⟨digits, rfl, decimal⟩ := decimals
  rw [digitsValue?_map_char start digits decimal] at h
  exact ⟨digits, rfl, decimal, Option.some.inj h⟩

theorem magnitude?_map_char {digits : List Char} (nonempty : digits ≠ [])
    (decimal : ∀ c ∈ digits, C.isDecimal c = true) :
    magnitude? (digits.map .char) = some (Nat.ofDigitChars 10 digits 0) := by
  cases digits with
  | nil => exact absurd rfl nonempty
  | cons c rest => exact digitsValue?_map_char 0 (c :: rest) decimal

theorem magnitude?_eq_some {m : Nat} (h : magnitude? s = some m) :
    ∃ digits : List Char, s = digits.map .char ∧ digits ≠ [] ∧
      (∀ c ∈ digits, C.isDecimal c = true) ∧ Nat.ofDigitChars 10 digits 0 = m := by
  cases s with
  | nil => cases h
  | cons g s =>
    obtain ⟨digits, same, decimal, value⟩ := digitsValue?_eq_some h
    refine ⟨digits, same, ?_, decimal, value⟩
    rintro rfl
    cases same

theorem numeral?_minus (rest : Source) :
    numeral? (.char '-' :: rest) = (magnitude? rest).map fun m : Nat => -(m : Int) := by
  rw [numeral?]
  cases magnitude? rest <;> rfl

theorem numeral?_of_unsigned (unsigned : s.head? ≠ some (.char '-')) :
    numeral? s = (magnitude? s).map fun m : Nat => (m : Int) := by
  unfold numeral?
  split
  · exact absurd rfl unsigned
  · cases magnitude? s <;> rfl

/-- The source text of a numeral. -/
theorem ofString_text (n : Numeral) : Source.ofString n.text =
    if n.negative then .char '-' :: n.digits.map .char else n.digits.map .char := by
  rw [Source.ofString, Numeral.text, String.toList_ofList]
  split <;> rfl

theorem numeral?_text (n : Numeral) : numeral? (.ofString n.text) = some n.value := by
  have magnitude := magnitude?_map_char n.nonempty n.decimal
  rw [ofString_text, Numeral.value]
  split
  · rw [numeral?_minus, magnitude]
    rfl
  · rw [numeral?_of_unsigned, magnitude]
    · rfl
    · rw [List.head?_map]
      intro minus
      obtain ⟨c, first, same⟩ := Option.map_eq_some_iff.1 minus
      obtain rfl := Glyph.char.inj same
      exact absurd (n.decimal '-' (List.mem_of_head? first)) (by decide)

theorem exists_numeral (h : numeral? s = some v) :
    ∃ n : Numeral, s = .ofString n.text ∧ n.value = v := by
  by_cases signed : s.head? = some (.char '-')
  · obtain ⟨rest, rfl⟩ := List.head?_eq_some_iff.1 signed
    rw [numeral?_minus] at h
    obtain ⟨m, read, rfl⟩ := Option.map_eq_some_iff.1 h
    obtain ⟨digits, rfl, nonempty, decimal, rfl⟩ := magnitude?_eq_some read
    refine ⟨⟨true, digits, nonempty, decimal⟩, ?_, rfl⟩
    rw [ofString_text]
    rfl
  · rw [numeral?_of_unsigned signed] at h
    obtain ⟨m, read, rfl⟩ := Option.map_eq_some_iff.1 h
    obtain ⟨digits, rfl, nonempty, decimal, rfl⟩ := magnitude?_eq_some read
    refine ⟨⟨false, digits, nonempty, decimal⟩, ?_, rfl⟩
    rw [ofString_text]
    rfl

/-! ## Where a number starts -/

/-- A text starts with a digit of any script, or with a minus sign and such a digit. -/
def StartsWithDigit (s : Source) : Prop :=
  ∃ d rest, Text.isDigit d = true ∧ (s = .char d :: rest ∨ s = .char '-' :: .char d :: rest)

/-- No digit is a blank or starts anything but a number. -/
theorem plain_of_isDigit {c : Char} (h : Text.isDigit c = true) : Text.isBlank c = false ∧
    c ∉ [';', '(', ')', Text.doubleQuote, Text.singleQuote] := by
  have each : ∀ n ∈ Text.digitRanges.points, Text.isBlank (Char.ofNat n) = false ∧
      Char.ofNat n ∉ [';', '(', ')', Text.doubleQuote, Text.singleQuote] := by
    decide +kernel
  have own := each c.toNat (Text.Ranges.mem_points h)
  rwa [Char.ofNat_toNat] at own

/-- Where a digit comes first, maybe after a minus sign, the lexer reads a number. -/
theorem step_of_startsWithDigit {first : Glyph} {rest : Source}
    (h : StartsWithDigit (first :: rest)) : step first rest = numberStep first rest := by
  obtain ⟨d, more, digit, same | same⟩ := h
  · obtain ⟨rfl, rfl⟩ := List.cons.inj same
    obtain ⟨blank, plain⟩ := plain_of_isDigit digit
    have number : startsNumber (.char d) rest = true := startsNumber_iff.2 (.inl digit)
    rw [step_of_plain blank plain, if_pos number]
  · obtain ⟨rfl, rfl⟩ := List.cons.inj same
    have number : startsNumber (.char '-') (.char d :: more) = true :=
      startsNumber_iff.2 (.inr ⟨rfl, _, rfl, digit⟩)
    rw [step_of_plain (by decide) (by decide), if_pos number]

theorem startsWithDigit_text (n : Numeral) (after : Source) :
    StartsWithDigit (.ofString n.text ++ after) := by
  obtain ⟨negative, digits, nonempty, decimal⟩ := n
  rw [ofString_text]
  cases digits with
  | nil => exact absurd rfl nonempty
  | cons c rest =>
    have digit : Text.isDigit c = true := isDigit_of_isDecimal (decimal c List.mem_cons_self)
    cases negative with
    | false => exact ⟨c, rest.map .char ++ after, digit, .inl rfl⟩
    | true => exact ⟨c, rest.map .char ++ after, digit, .inr rfl⟩

/-! ## Numerals by themselves -/

theorem decimal_of_text {n : Numeral} {first : Glyph} {rest : Source}
    (whole : Source.ofString n.text = first :: rest) :
    ∀ g ∈ rest, ∃ c, g = .char c ∧ C.isDecimal c = true := by
  rw [ofString_text] at whole
  have digits : ∀ g ∈ n.digits.map Glyph.char, ∃ c, g = .char c ∧ C.isDecimal c = true := by
    rw [List.forall_mem_map]
    exact fun c hc => ⟨c, rfl, n.decimal c hc⟩
  split at whole
  · rw [(List.cons.inj whole).2] at digits
    exact digits
  · rw [whole] at digits
    exact (List.forall_mem_cons.1 digits).2

theorem fits_iff {n : Numeral} : n.Fits ↔ isWord32 n.value = true := by
  simp [Numeral.Fits, isWord32]

/-- A numeral is read as its number if this fits, and else refused. -/
theorem numberStep_text {n : Numeral} {first : Glyph} {rest : Source}
    (whole : Source.ofString n.text = first :: rest) :
    (n.Fits → numberStep first rest = .token (.int n.value) rest.length n.text.length) ∧
      (¬ n.Fits → ∃ cause : Fault, cause.kind = .reading ∧
        numberStep first rest = .fault cause n.text.length) := by
  have run : rest.takeWhile (fun g => !isDelimiter g.rune) = rest := by
    refine List.takeWhile_eq_self_iff.2 fun g hg => ?_
    obtain ⟨c, rfl, digit⟩ := decimal_of_text whole g hg
    exact not_isDelimiter_of_isDecimal digit
  have read : numeral? (first :: rest) = some n.value := whole ▸ numeral?_text n
  have size : Source.size (first :: rest) = n.text.length := by
    rw [Source.size_eq_length fun g hg => (plain_of_numeral? read g hg).1, ← whole, Source.ofString,
      List.length_map, String.length_toList]
  constructor
  · intro fits
    have word64 : isWord64 n.value = true := by
      have := fits.1
      have := fits.2
      simp only [isWord64, Bool.and_eq_true, decide_eq_true_eq]
      omega
    simp only [numberStep, run, read, word64, fits_iff.1 fits, size]
    rfl
  · intro wide
    have word32 : isWord32 n.value = false := Bool.eq_false_iff.2 fun h => wide (fits_iff.2 h)
    simp only [numberStep, run, read, word32, size]
    cases isWord64 n.value
    · exact ⟨_, rfl, rfl⟩
    · exact ⟨_, rfl, rfl⟩

theorem lex_numeral (file : String) (n : Numeral) :
    (n.Fits → lex file (.ofString n.text) =
      .ok [⟨.int n.value, ⟨file, 1, 1, n.text.length, none⟩⟩]) ∧
    (¬ n.Fits → ∃ problem, lex file (.ofString n.text) = .error problem ∧
      problem.fault.kind = .reading ∧ problem.loc = some ⟨file, 1, 1, n.text.length, none⟩) := by
  have starts := startsWithDigit_text n []
  rw [List.append_nil] at starts
  rw [lex]
  cases whole : Source.ofString n.text with
  | nil =>
    rw [whole] at starts
    obtain ⟨d, rest, -, same | same⟩ := starts <;> cases same
  | cons first rest =>
    rw [whole] at starts
    obtain ⟨accepted, refused⟩ := numberStep_text whole
    rw [scan, step_of_startsWithDigit starts]
    constructor
    · intro fits
      simp only [accepted fits, List.drop_length, scan]
      rfl
    · intro wide
      obtain ⟨cause, kind, faults⟩ := refused wide
      simp only [faults]
      exact ⟨_, rfl, kind, rfl⟩

/-! ## Numbers in a source -/

/-- A token is taken from a piece of a source between `before` and `after`. -/
def TakenFrom (t : Token) (file : String) (before piece after : Source) : Prop :=
  ∃ len, Takes piece after t.value len ∧ t.loc = .behind file before len

/-- Every token is taken from some piece of its source. -/
theorem exists_takenFrom_of_scan {file : String} (before : Source) {rest : Source}
    {tokens : List Token} (h : scan file (Position.start.advance before) rest = .ok tokens) :
    ∀ t ∈ tokens, ∃ b piece after, before ++ rest = b ++ (piece ++ after) ∧
      t.TakenFrom file b piece after := by
  generalize place : Position.start.advance before = p at h
  induction p, rest using scan.induct file generalizing before tokens with
  | case1 p =>
    rw [scan] at h
    obtain rfl := Except.ok.inj h
    exact List.forall_mem_nil _
  | case2 p first rest more skips ih =>
    rw [scan, skips] at h
    have later := ih (before ++ first :: rest.take more)
      (by rw [Position.advance_append, place]) h
    rwa [append_take_drop] at later
  | case3 p first rest value more len takes later read ih =>
    simp only [scan, takes, read] at h
    obtain rfl := Except.ok.inj h
    have others := ih (before ++ first :: rest.take more)
      (by rw [Position.advance_append, place]) read
    rw [append_take_drop] at others
    refine List.forall_mem_cons.2 ⟨⟨before, first :: rest.take more, rest.drop more, ?_, len,
      takes_of_step takes, ?_⟩, others⟩
    · rw [← List.append_assoc, append_take_drop]
    · rw [← place]
      rfl
  | case4 p first rest value more len takes problem fails ih =>
    simp only [scan, takes, fails] at h
    cases h
  | case5 p first rest cause len faults =>
    rw [scan, faults] at h
    cases h

section Pieces

variable {piece after : Source} {value : Value} {len : Nat}

/-- An integer is taken from a numeral. -/
theorem Takes.exists_numeral (h : Takes piece after (.int v) len) :
    ∃ n : Numeral, n.Fits ∧ n.value = v ∧ piece = .ofString n.text := by
  obtain ⟨first, rest, rfl, takes⟩ := h
  have own : (rest ++ after).take rest.length = rest := List.take_left
  obtain ⟨-, other, -⟩ | ⟨-, other, -⟩ | string | character | number | ⟨-, ident⟩ :=
    step_token_cases takes
  · cases other
  · cases other
  · obtain ⟨⟨s, other⟩, -⟩ := stringStep_eq_token string
    cases other
  · obtain ⟨⟨c, other⟩, -⟩ := charStep_eq_token character
    cases other
  · obtain ⟨-, ⟨_, same, read⟩, -⟩ := numberStep_eq_token number
    obtain rfl := Value.int.inj same
    rw [own] at read
    obtain ⟨n, text, rfl⟩ := Token.exists_numeral read
    exact ⟨n, isReadable_of_numberStep number, rfl, text⟩
  · cases ident

/-- Where a digit comes first, maybe after a minus sign, a token is an integer. -/
theorem Takes.int_of_startsWithDigit (h : Takes piece after value len)
    (digit : StartsWithDigit (piece ++ after)) : ∃ v, value = .int v := by
  obtain ⟨first, rest, rfl, takes⟩ := h
  rw [List.cons_append] at digit
  rw [step_of_startsWithDigit digit] at takes
  obtain ⟨-, ⟨v, int, -⟩, -⟩ := numberStep_eq_token takes
  exact ⟨v, int⟩

/-- A token is an integer exactly if it is taken from a numeral. -/
theorem Takes.int_iff (h : Takes piece after value len) : value = .int v ↔
    ∃ n : Numeral, n.Fits ∧ n.value = v ∧ piece = .ofString n.text := by
  constructor
  · rintro rfl
    exact h.exists_numeral
  · rintro ⟨n, -, rfl, rfl⟩
    obtain ⟨v, rfl⟩ := h.int_of_startsWithDigit (startsWithDigit_text n after)
    obtain ⟨m, -, rfl, same⟩ := h.exists_numeral
    have values := numeral?_text m
    rw [← same, numeral?_text] at values
    exact congrArg Value.int (Option.some.inj values).symm

end Pieces

theorem numberStep_ne_skip (first : Glyph) (rest : Source) (more : Nat) :
    numberStep first rest ≠ .skip more := by
  intro skips
  simp only [numberStep] at skips
  split at skips
  · cases skips
  split at skips
  · cases skips
  split at skips <;> cases skips

theorem Takes.length_of_int {piece after : Source} {len : Nat}
    (h : Takes piece after (.int v) len) : len = piece.length := by
  cases h.measured
  rfl

/-- A source that starts with a digit, maybe after a minus sign, starts with a numeral. -/
theorem exists_numeral_of_lex {file : String} {source : Source} {tokens : List Token}
    (h : lex file source = .ok tokens) (digit : StartsWithDigit source) :
    ∃ (n : Numeral) (more : List Token), n.Fits ∧ Source.ofString n.text <+: source ∧
      tokens = ⟨.int n.value, ⟨file, 1, 1, n.text.length, none⟩⟩ :: more := by
  cases source with
  | nil =>
    obtain ⟨d, rest, -, same | same⟩ := digit <;> cases same
  | cons first rest =>
    rw [lex, scan] at h
    split at h
    · next more skips =>
      rw [step_of_startsWithDigit digit] at skips
      exact absurd skips (numberStep_ne_skip first rest more)
    · next value more len takes =>
      split at h
      · next later _ =>
        obtain rfl := Except.ok.inj h
        have whole : first :: rest.take more ++ rest.drop more = first :: rest := by
          rw [List.cons_append, List.take_append_drop]
        have taken := takes_of_step takes
        obtain ⟨v, rfl⟩ := taken.int_of_startsWithDigit (whole.symm ▸ digit)
        obtain ⟨n, fits, rfl, text⟩ := taken.exists_numeral
        have length := taken.length_of_int
        rw [text, Source.ofString, List.length_map, String.length_toList] at length
        subst length
        exact ⟨n, later, fits, ⟨rest.drop more, text ▸ whole⟩, rfl⟩
      · cases h
    · cases h

/-- **Numerals.** A numeral by itself is read as one integer token if its number fits in a C `int`,
and is refused by the lexer if it does not. In a source that is read, every token is taken from a
piece of the source. It is an integer exactly if this piece is a numeral that fits, and then it is the
number of this numeral. Wherever the source goes on with a digit of any script at a token, or with a
minus sign and such a digit, the token is an integer; a source that starts so starts with a numeral. -/
theorem numerals_exact (file : String) :
    (∀ n : Numeral,
      (n.Fits → lex file (.ofBytes n.text.toUTF8.data.toList) =
        .ok [⟨.int n.value, ⟨file, 1, 1, n.text.length, none⟩⟩]) ∧
      (¬ n.Fits → ∃ problem, lex file (.ofBytes n.text.toUTF8.data.toList) = .error problem ∧
        problem.fault.kind = .reading ∧
        problem.loc = some ⟨file, 1, 1, n.text.length, none⟩)) ∧
    (∀ bytes tokens, lex file (.ofBytes bytes) = .ok tokens →
      (∀ t ∈ tokens, ∃ before piece after, Source.ofBytes bytes = before ++ (piece ++ after) ∧
        t.TakenFrom file before piece after ∧
        (∀ v, t.value = .int v ↔
          ∃ n : Numeral, n.Fits ∧ n.value = v ∧ piece = .ofString n.text) ∧
        (StartsWithDigit (piece ++ after) → ∃ v, t.value = .int v)) ∧
      (StartsWithDigit (.ofBytes bytes) → ∃ (n : Numeral) (more : List Token), n.Fits ∧
        Source.ofString n.text <+: Source.ofBytes bytes ∧
        tokens = ⟨.int n.value, ⟨file, 1, 1, n.text.length, none⟩⟩ :: more)) := by
  refine ⟨fun n => ?_, fun bytes tokens h => ⟨fun t ht => ?_, exists_numeral_of_lex h⟩⟩
  · rw [Source.ofBytes_toUTF8]
    exact lex_numeral file n
  · obtain ⟨before, piece, after, cut, taken⟩ := exists_takenFrom_of_scan [] h t ht
    have ⟨len, takes, _⟩ := taken
    exact ⟨before, piece, after, cut, taken, fun _ => takes.int_iff,
      takes.int_of_startsWithDigit⟩

/-- The digits of 2 to the 31st, maybe after a minus sign. -/
def edge (negative : Bool) : Numeral :=
  ⟨negative, ['2', '1', '4', '7', '4', '8', '3', '6', '4', '8'], List.cons_ne_nil _ _,
    List.all_eq_true.1 (by decide)⟩

theorem numerals_exact_edge : (edge true).Fits ∧ ¬ (edge false).Fits ∧
    (∃ problem, lex "a" (.ofBytes (edge false).text.toUTF8.data.toList) = .error problem ∧
      problem.fault.kind = .reading ∧ problem.loc = some ⟨"a", 1, 1, 10, none⟩) ∧
    ∃ tokens, lex "a" (.ofBytes (edge true).text.toUTF8.data.toList) = .ok tokens ∧
      tokens = [⟨.int (-2147483648), ⟨"a", 1, 1, 11, none⟩⟩] ∧
      ∀ t ∈ tokens, ∃ before piece after,
        Source.ofBytes (edge true).text.toUTF8.data.toList = before ++ (piece ++ after) ∧
        t.TakenFrom "a" before piece after ∧
        (∀ v, t.value = .int v ↔
          ∃ n : Numeral, n.Fits ∧ n.value = v ∧ piece = .ofString n.text) ∧
        (StartsWithDigit (piece ++ after) → ∃ v, t.value = .int v) := by
  have fits : (edge true).Fits := fits_iff.2 (by decide)
  have wide : ¬ (edge false).Fits := fun h => absurd (fits_iff.1 h) (by decide)
  obtain ⟨alone, within⟩ := numerals_exact "a"
  have read := (alone (edge true)).1 fits
  exact ⟨fits, wide, (alone (edge false)).2 wide, _, read, by decide, (within _ _ read).1⟩

end Token

end LittleLisp
