import LittleLisp.Proofs.Text.Literal
import LittleLisp.Proofs.Text.Numeral
import LittleLisp.Token.Lexer

/-!
# What the lexer reads

Two views of the lexer. From the source: whatever it accepts, every token has a value that the
language allows (`isReadable_of_scan`). From the values: the text that stands for a value is read as
that one token, before anything that a printed tree can be followed by. Places do not matter for
this, so `Scans text values` says that a text is read as tokens with these values wherever it
stands.
-/

namespace LittleLisp

/-! ## Classes of characters -/

namespace Text

/-- The code points of some ranges, one by one. -/
def Ranges.points (r : Ranges) : List Nat :=
  r.flatMap fun (lo, hi) => List.range' lo (hi + 1 - lo)

theorem Ranges.mem_points {r : Ranges} {n : Nat} (h : r.contains n = true) : n ∈ r.points := by
  induction r with
  | nil => cases h
  | cons range rest ih =>
    obtain ⟨lo, hi⟩ := range
    simp only [contains, Bool.and_eq_true, Bool.or_eq_true, decide_eq_true_eq] at h
    obtain ⟨above, below | later⟩ := h
    · refine List.mem_flatMap.2 ⟨(lo, hi), by simp, ?_⟩
      rw [List.mem_range'_1]
      omega
    · exact List.mem_append_right _ (ih later)

end Text

@[simp] theorem Glyph.rune_char (c : Char) : (Glyph.char c).rune = c := rfl

namespace Token

/-- No blank may start an identifier. -/
theorem not_isBlank_of_isIdentStart {c : Char} (h : isIdentStart c = true) :
    Text.isBlank c = false := by
  have none : ∀ n ∈ Text.blankRanges.points, isIdentStart (Char.ofNat n) = false := by
    decide +kernel
  apply Bool.eq_false_iff.2
  intro blank
  have := none c.toNat (Text.Ranges.mem_points blank)
  rw [Char.ofNat_toNat, h] at this
  cases this

/-- What holds of the ten digits holds of every decimal digit of ASCII. -/
theorem of_isDecimal {p : Char → Bool} (table : ∀ k : Fin 10, p (Char.ofNat (48 + k)) = true)
    {c : Char} (h : C.isDecimal c = true) : p c = true := by
  have bounds := Text.isDecimal_iff.1 h
  have this := table ⟨c.toNat - 48, by omega⟩
  have code : 48 + (c.toNat - 48) = c.toNat := by omega
  rwa [code, Char.ofNat_toNat] at this

theorem isDigit_of_isDecimal {c : Char} (h : C.isDecimal c = true) : Text.isDigit c = true :=
  of_isDecimal (by decide) h

theorem not_isDelimiter_of_isDecimal {c : Char} (h : C.isDecimal c = true) :
    (!isDelimiter c) = true :=
  of_isDecimal (p := fun c => !isDelimiter c) (by decide) h

theorem not_isBlank_of_isDecimal {c : Char} (h : C.isDecimal c = true) :
    Text.isBlank c = false := by
  simpa using of_isDecimal (p := fun c => !Text.isBlank c) (by decide) h

theorem plain_of_isDecimal {c : Char} (h : C.isDecimal c = true) :
    c ∉ [';', '(', ')', Text.doubleQuote, Text.singleQuote] := by
  simpa using of_isDecimal
    (p := fun c => !([';', '(', ')', Text.doubleQuote, Text.singleQuote].contains c)) (by decide) h

/-! ## Values that are read -/

/-- A name that is read as an identifier: it is made of letters, digits and some signs, and does
not start like a number. -/
structure IsIdentifier (name : String) : Prop where
  not_empty : name.toList ≠ []
  parts : ∀ c ∈ name.toList, isIdentPart c = true
  no_digit : ∀ c ∈ name.toList.head?, Text.isDigit c = false
  no_minus : name.toList.head? = some '-' → ∀ c ∈ name.toList.tail.head?, Text.isDigit c = false

/-- Names that are read as identifiers can be told by looking at them. -/
theorem isIdentifier_iff {name : String} : IsIdentifier name ↔
    name.toList ≠ [] ∧ name.toList.all isIdentPart = true ∧
      name.toList.head?.all (fun c => !Text.isDigit c) = true ∧
      (name.toList.head? = some '-' →
        name.toList.tail.head?.all (fun c => !Text.isDigit c) = true) := by
  simp only [List.all_eq_true, Option.all_eq_true, Bool.not_eq_true']
  constructor
  · rintro ⟨not_empty, parts, no_digit, no_minus⟩
    exact ⟨not_empty, parts, no_digit, no_minus⟩
  · rintro ⟨not_empty, parts, no_digit, no_minus⟩
    exact ⟨not_empty, parts, no_digit, no_minus⟩

instance (name : String) : Decidable (IsIdentifier name) :=
  decidable_of_iff' _ isIdentifier_iff

/-- The values that tokens can have. -/
def Value.IsReadable : Value → Prop
  | opening | closing | str _ => True
  | int n => -2147483648 ≤ n ∧ n ≤ 2147483647
  | char c => c.toNat < 0x80
  | ident name => IsIdentifier name

theorem isReadable_of_numberStep {first : Glyph} {rest : Source} {v : Value} {more len : Nat}
    (h : numberStep first rest = .token v more len) : v.IsReadable := by
  simp only [numberStep] at h
  split at h
  · cases h
  · next n read =>
    split at h
    · cases h
    · split at h
      · cases h
      · next fits =>
        cases h
        simpa [Value.IsReadable, isWord32] using fits

theorem isReadable_of_closeChar {value : Char} {more : Nat} {rest : Source} {v : Value}
    {taken len : Nat} (h : closeChar value more rest = .token v taken len) : v.IsReadable := by
  unfold closeChar at h
  split at h
  · split at h
    · cases h
    · split at h
      · cases h
      · next narrow =>
        cases h
        exact Nat.lt_of_not_le narrow
  · cases h

theorem isReadable_of_charStep {rest : Source} {v : Value} {more len : Nat}
    (h : charStep rest = .token v more len) : v.IsReadable := by
  unfold charStep at h
  split at h
  · cases h
  · split at h
    · cases h
    · split at h
      · split at h
        · cases h
        · exact isReadable_of_closeChar h
      · exact isReadable_of_closeChar h

theorem isReadable_of_stringStep {first : Glyph} {rest : Source} {v : Value} {more len : Nat}
    (h : stringStep first rest = .token v more len) : v.IsReadable := by
  unfold stringStep at h
  split at h
  · cases h
  · cases h
    trivial

/-- What is taken as an identifier does not start like a number. -/
theorem isReadable_of_identStep {first : Glyph} {rest : Source} {v : Value} {more len : Nat}
    (start : isIdentStart first.rune = true) (plain : startsNumber first rest = false)
    (h : identStep first rest = .token v more len) : v.IsReadable := by
  simp only [identStep] at h
  cases h
  simp only [startsNumber, Bool.or_eq_false_iff, Bool.and_eq_false_iff] at plain
  obtain ⟨no_digit, no_minus⟩ := plain
  have name : (Source.toText (first :: rest.takeWhile fun g => isIdentPart g.rune)).toList =
      first.rune :: (rest.takeWhile fun g => isIdentPart g.rune).map Glyph.rune := by
    simp [Source.toText]
  refine ⟨by simp [name], ?_, by simpa [name] using no_digit, ?_⟩
  · rw [name]
    refine List.forall_mem_cons.2 ⟨by simp [isIdentPart, start], ?_⟩
    intro c hc
    obtain ⟨g, hg, rfl⟩ := List.mem_map.1 hc
    exact List.all_eq_true.1 List.all_takeWhile g hg
  · rw [name]
    intro starts c hc
    have minus : first.rune = '-' := Option.some.inj starts
    cases rest with
    | nil => simp at hc
    | cons g rest =>
      have other : Text.isDigit g.rune = false := by
        rw [minus] at no_minus
        exact no_minus.resolve_left (by decide)
      rw [List.tail_cons, List.takeWhile_cons] at hc
      split at hc
      · obtain rfl : g.rune = c := by simpa using hc
        exact other
      · simp at hc

/-- A step of the lexer takes only values that tokens can have. -/
theorem isReadable_of_step {first : Glyph} {rest : Source} {v : Value} {more len : Nat}
    (h : step first rest = .token v more len) : v.IsReadable := by
  simp only [step] at h
  split at h
  · cases h
  split at h
  · cases h
  split at h
  · cases h
    trivial
  split at h
  · cases h
    trivial
  split at h
  · exact isReadable_of_stringStep h
  split at h
  · exact isReadable_of_charStep h
  split at h
  · exact isReadable_of_numberStep h
  next plain =>
  split at h
  · next start => exact isReadable_of_identStep start (by simpa using plain) h
  · cases h

/-- Every token of a source has a value that tokens can have. -/
theorem isReadable_of_scan {file : String} {p : Position} {source : Source} {tokens : List Token}
    (h : scan file p source = .ok tokens) : ∀ t ∈ tokens, t.value.IsReadable := by
  induction p, source using scan.induct file generalizing tokens with
  | case1 p =>
    rw [scan] at h
    obtain rfl := Except.ok.inj h
    simp
  | case2 p first rest more skips ih =>
    rw [scan, skips] at h
    exact ih h
  | case3 p first rest value more len takes later read ih =>
    simp only [scan, takes, read] at h
    obtain rfl := Except.ok.inj h
    exact List.forall_mem_cons.2 ⟨isReadable_of_step takes, ih read⟩
  | case4 p first rest value more len takes problem fails ih =>
    simp only [scan, takes, fails] at h
    cases h
  | case5 p first rest cause len faults =>
    rw [scan, faults] at h
    cases h

/-! ## Texts that are read -/

/-- A text is read as tokens with these values, wherever it stands. -/
def Scans (text : List Char) (values : List Value) : Prop :=
  ∀ file p, ∃ tokens, scan file p (text.map .char) = .ok tokens ∧ tokens.map (·.value) = values

/-- What can follow a printed tree: it ends everything that can be read as longer. -/
def Ends (rest : List Char) : Prop :=
  ∀ c ∈ rest.head?, c ∈ [' ', ')', '\n']

theorem Ends.cons {c : Char} (h : c ∈ [' ', ')', '\n']) (rest : List Char) : Ends (c :: rest) := by
  intro d hd
  obtain rfl := Option.some.inj hd
  exact h

theorem Ends.of_table {rest : List Char} (h : Ends rest) {p : Char → Bool}
    (table : [' ', ')', '\n'].all (fun c => !p c) = true) : ∀ c ∈ rest.head?, p c = false := by
  intro c hc
  simpa using List.all_eq_true.1 table c (h c hc)

theorem scans_nil : Scans [] [] := by
  intro file p
  exact ⟨[], by simp [scan], rfl⟩

variable {rest : List Char} {values : List Value}

theorem scans_blank {c : Char} (blank : Text.isBlank c = true) (h : Scans rest values) :
    Scans (c :: rest) values := by
  intro file p
  have skips : step (.char c) (rest.map .char) = .skip 0 := by
    simp [step, blank]
  simp only [List.map_cons, scan, skips]
  exact h file _

/-- A token, and then whatever the rest is read as. -/
theorem scans_token {c : Char} {tail : List Char} {v : Value} {len : Nat}
    (takes : step (.char c) ((tail ++ rest).map .char) = .token v tail.length len)
    (h : Scans rest values) : Scans (c :: tail ++ rest) (v :: values) := by
  intro file p
  obtain ⟨tokens, read, same⟩ :=
    h file (p.advance (.char c :: ((tail ++ rest).map .char).take tail.length))
  have left : ((tail ++ rest).map Glyph.char).drop tail.length = rest.map .char := by
    simp
  refine ⟨⟨v, ⟨file, p.line, p.col, len, none⟩⟩ :: tokens, ?_, congrArg (v :: ·) same⟩
  simp only [List.cons_append, List.map_cons, scan, takes, left, read]

theorem scans_single {c : Char} {v : Value} {len : Nat}
    (takes : step (.char c) (rest.map .char) = .token v 0 len) (h : Scans rest values) :
    Scans (c :: rest) (v :: values) :=
  @scans_token rest values c [] v len takes h

theorem scans_opening (h : Scans rest values) : Scans ('(' :: rest) (.opening :: values) :=
  scans_single (c := '(') rfl h

theorem scans_closing (h : Scans rest values) : Scans (')' :: rest) (.closing :: values) :=
  scans_single (c := ')') rfl h

/-! ## Identifiers -/

/-- What starts neither a blank, a comment, a form nor a literal is a number or an identifier. -/
theorem step_of_plain {c : Char} (blank : Text.isBlank c = false)
    (plain : c ∉ [';', '(', ')', Text.doubleQuote, Text.singleQuote]) (rest : Source) :
    step (.char c) rest =
      if startsNumber (.char c) rest then numberStep (.char c) rest
      else if isIdentStart c then identStep (.char c) rest
      else .fault (.unknownToken c) 1 := by
  simp only [List.mem_cons, List.not_mem_nil, or_false, not_or] at plain
  obtain ⟨comment, opening, closing, double, single⟩ := plain
  simp only [step, Glyph.rune_char, blank, comment, opening, closing, double, single, if_false,
    Bool.false_eq_true]
  rfl

theorem plain_of_isIdentStart {c : Char} (start : isIdentStart c = true) :
    c ∉ [';', '(', ')', Text.doubleQuote, Text.singleQuote] := by
  have none : [';', '(', ')', Text.doubleQuote, Text.singleQuote].all (fun d => !isIdentStart d) =
      true := by
    decide +kernel
  intro hc
  have other := List.all_eq_true.1 none c hc
  rw [start] at other
  cases other

/-- A run of characters of one kind, as glyphs. -/
theorem takeWhile_map_char (p : Char → Bool) (text : List Char) :
    (text.map Glyph.char).takeWhile (fun g => p g.rune) = (text.takeWhile p).map .char :=
  List.takeWhile_map

theorem map_rune_char (text : List Char) : (text.map Glyph.char).map Glyph.rune = text := by
  simp [Function.comp_def]

theorem scans_ident {name : String} (identifier : IsIdentifier name) (ends : Ends rest)
    (h : Scans rest values) : Scans (name.toList ++ rest) (.ident name :: values) := by
  obtain ⟨not_empty, parts, no_digit, no_minus⟩ := identifier
  cases shape : name.toList with
  | nil => exact absurd shape not_empty
  | cons c tail =>
    rw [shape] at parts no_digit no_minus
    have digit : Text.isDigit c = false := no_digit c rfl
    have start : isIdentStart c = true := by
      simpa [isIdentPart, digit] using parts c (by simp)
    have run : (tail ++ rest).takeWhile isIdentPart = tail :=
      Text.takeWhile_run (fun d hd => parts d (List.mem_cons_of_mem _ hd))
        (ends.of_table (by decide +kernel))
    -- A digit after a minus sign would be part of the name.
    have number : startsNumber (.char c) ((tail ++ rest).map .char) = false := by
      simp only [startsNumber, Glyph.rune_char, digit, Bool.false_or, Bool.and_eq_false_iff]
      by_cases minus : c = '-'
      · refine .inr ?_
        cases tail with
        | nil =>
          cases rest with
          | nil => rfl
          | cons d more => exact ends.of_table (p := Text.isDigit) (by decide) d rfl
        | cons d more => exact no_minus (congrArg some minus) d rfl
      · exact .inl (by simpa using minus)
    have takes : step (.char c) ((tail ++ rest).map .char) =
        .token (.ident name) tail.length (tail.length + 1) := by
      rw [step_of_plain (not_isBlank_of_isIdentStart start) (plain_of_isIdentStart start), number,
        if_neg (by decide), if_pos start]
      simp only [identStep, takeWhile_map_char, run, List.length_map, Source.toText, List.map_cons,
        map_rune_char, Glyph.rune_char]
      rw [← shape, String.ofList_toList]
    exact scans_token takes h

/-! ## Numbers -/

theorem digitsValue?_map_char (value : Nat) (digits : List Char)
    (decimal : ∀ c ∈ digits, C.isDecimal c = true) :
    digitsValue? value (digits.map .char) = some (Nat.ofDigitChars 10 digits value) := by
  induction digits generalizing value with
  | nil => rfl
  | cons c rest ih =>
    obtain ⟨first, later⟩ := List.forall_mem_cons.1 decimal
    have bounds : '0' ≤ c ∧ c ≤ '9' := by simpa [C.isDecimal] using first
    have digit : digitValue? (.char c) = some (c.toNat - '0'.toNat) := by
      rw [digitValue?, if_pos bounds]
    rw [List.map_cons, digitsValue?, digit, Nat.ofDigitChars_cons, Nat.mul_comm 10]
    exact ih _ later

theorem magnitude?_toDigits (n : Nat) :
    magnitude? ((Nat.toDigits 10 n).map .char) = some n := by
  have value := digitsValue?_map_char 0 (Nat.toDigits 10 n)
    fun c hc => Text.isDecimal_of_mem_toDigits hc
  rw [Nat.ofDigitChars_ten_toDigits] at value
  cases shape : Nat.toDigits 10 n with
  | nil => exact absurd shape Nat.toDigits_ne_nil
  | cons c tail =>
    rw [shape] at value
    exact value

/-- The text of an integer is a numeral with that value. -/
theorem numeral?_intChars (n : Int) : numeral? ((toString n).toList.map .char) = some n := by
  by_cases nonneg : 0 ≤ n
  · rw [Text.intChars_of_nonneg nonneg]
    have value := magnitude?_toDigits n.toNat
    cases shape : Nat.toDigits 10 n.toNat with
    | nil => exact absurd shape Nat.toDigits_ne_nil
    | cons c tail =>
      have decimal : C.isDecimal c = true :=
        Text.isDecimal_of_mem_toDigits (n := n.toNat) (by simp [shape])
      have not_minus : c ≠ '-' := by
        rintro rfl
        exact absurd decimal (by decide)
      rw [shape] at value
      rw [List.map_cons] at value ⊢
      unfold numeral?
      split
      · next same => exact absurd (Glyph.char.inj (List.cons.inj same).1) not_minus
      · rw [value]
        exact congrArg some (Int.toNat_of_nonneg nonneg)
  · have magnitude : -((-n).toNat : Int) = n := by omega
    rw [Text.intChars_of_neg (by omega), List.map_cons, numeral?, magnitude?_toDigits]
    exact congrArg some magnitude

/-- A numeral in range is read as one number. -/
theorem scans_numeral {c : Char} {tail : List Char} {n : Int}
    (blank : Text.isBlank c = false)
    (plain : c ∉ [';', '(', ')', Text.doubleQuote, Text.singleQuote])
    (number : startsNumber (.char c) ((tail ++ rest).map .char) = true)
    (digits : ∀ d ∈ tail, C.isDecimal d = true)
    (value : numeral? ((c :: tail).map .char) = some n)
    (range : -2147483648 ≤ n ∧ n ≤ 2147483647) (ends : Ends rest) (h : Scans rest values) :
    Scans (c :: tail ++ rest) (.int n :: values) := by
  have run : (tail ++ rest).takeWhile (fun d => !isDelimiter d) = tail :=
    Text.takeWhile_run (fun d hd => not_isDelimiter_of_isDecimal (digits d hd))
      (ends.of_table (by decide))
  have word64 : isWord64 n = true := by
    simp only [isWord64, Bool.and_eq_true, decide_eq_true_eq]
    omega
  have word32 : isWord32 n = true := by
    simpa [isWord32] using range
  have takes : step (.char c) ((tail ++ rest).map .char) =
      .token (.int n) tail.length (Source.size ((c :: tail).map .char)) := by
    rw [step_of_plain blank plain, if_pos number]
    have taken := takeWhile_map_char (fun d => !isDelimiter d) (tail ++ rest)
    rw [run] at taken
    rw [List.map_cons] at value ⊢
    simp only [numberStep, taken, value, word64, word32, List.length_map]
    rfl
  exact scans_token takes h

theorem scans_int {n : Int} (range : -2147483648 ≤ n ∧ n ≤ 2147483647) (ends : Ends rest)
    (h : Scans rest values) : Scans ((toString n).toList ++ rest) (.int n :: values) := by
  have value := numeral?_intChars n
  have decimal (k : Nat) : ∀ c ∈ Nat.toDigits 10 k, C.isDecimal c = true :=
    fun c hc => Text.isDecimal_of_mem_toDigits hc
  by_cases nonneg : 0 ≤ n
  · rw [Text.intChars_of_nonneg nonneg] at value ⊢
    have digits := decimal n.toNat
    cases shape : Nat.toDigits 10 n.toNat with
    | nil => exact absurd shape Nat.toDigits_ne_nil
    | cons c tail =>
      rw [shape] at value digits
      obtain ⟨first, later⟩ := List.forall_mem_cons.1 digits
      refine scans_numeral ?_ ?_ ?_ later value range ends h
      · exact not_isBlank_of_isDecimal first
      · exact plain_of_isDecimal first
      · simp [startsNumber, isDigit_of_isDecimal first]
  · rw [Text.intChars_of_neg (by omega)] at value ⊢
    refine scans_numeral (by decide) (by decide) ?_ (decimal _) value range ends h
    have digits := decimal (-n).toNat
    cases shape : Nat.toDigits 10 (-n).toNat with
    | nil => exact absurd shape Nat.toDigits_ne_nil
    | cons d more =>
      rw [shape] at digits
      have next := isDigit_of_isDecimal (digits d (by simp))
      simp [startsNumber, next]

/-! ## Literals -/

theorem stringBody?_quote (rest : Source) :
    stringBody? (.char Text.doubleQuote :: rest) = some ([], 1) := by
  rw [stringBody?.eq_def]
  rfl

theorem stringBody?_plain {c : Char} (not_quote : c ≠ Text.doubleQuote) (not_backslash : c ≠ '\\')
    (rest : Source) :
    stringBody? (.char c :: rest) = (stringBody? rest).map fun (cs, n) => (c :: cs, n + 1) := by
  rw [stringBody?.eq_def]
  simp [not_quote, not_backslash]

theorem stringBody?_escaped (letter : Char) (rest : Source) :
    stringBody? (.char '\\' :: .char letter :: rest) =
      (stringBody? rest).map fun (cs, n) => (Text.unescape letter :: cs, n + 2) := by
  have other : '\\' ≠ Text.doubleQuote := by decide
  rw [stringBody?.eq_def]
  simp [other]

/-- The contents of a string are read up to its closing quote. -/
theorem stringBody?_literal (s rest : List Char) :
    stringBody? ((s.flatMap (Text.literalChar Text.doubleQuote) ++ [Text.doubleQuote] ++ rest).map
      .char) = some (s, (s.flatMap (Text.literalChar Text.doubleQuote) ++ [Text.doubleQuote]).length) := by
  induction s with
  | nil => exact stringBody?_quote _
  | cons c s ih =>
    simp only [List.flatMap_cons, List.append_assoc] at ih ⊢
    have written := Text.written_literalChar Text.isQuote_double c
    generalize Text.literalChar Text.doubleQuote c = text at written
    cases written with
    | plain not_quote not_backslash _ =>
      rw [List.singleton_append, List.map_cons, stringBody?_plain not_quote not_backslash, ih]
      rfl
    | escaped means _ =>
      rw [List.cons_append, List.singleton_append, List.map_cons, List.map_cons,
        stringBody?_escaped, ih, means]
      rfl

theorem scans_str (s : String) (h : Scans rest values) :
    Scans (Text.literal Text.doubleQuote s.toList ++ rest) (.str s :: values) := by
  have body := stringBody?_literal s.toList rest
  rw [Text.literal, List.cons_append]
  generalize s.toList.flatMap (Text.literalChar Text.doubleQuote) ++ [Text.doubleQuote] = tail at body
  have takes : step (.char Text.doubleQuote) ((tail ++ rest).map .char) =
      .token (.str s) tail.length
        (Source.size (.char Text.doubleQuote :: ((tail ++ rest).map .char).take tail.length)) := by
    have dispatch : step (.char Text.doubleQuote) ((tail ++ rest).map .char) =
        stringStep (.char Text.doubleQuote) ((tail ++ rest).map .char) := rfl
    rw [dispatch, stringStep, body]
    simp only [String.ofList_toList]
  exact scans_token takes h

/-- A character constant is read as its value. -/
theorem scans_char {c : Char} (narrow : c.toNat < 0x80) (h : Scans rest values) :
    Scans (Text.literal Text.singleQuote [c] ++ rest) (.char c :: values) := by
  have written := Text.written_literalChar Text.isQuote_single c
  rw [Text.literal, List.flatMap_singleton]
  generalize Text.literalChar Text.singleQuote c = text at written
  have dispatch (tail : Source) : step (.char Text.singleQuote) tail = charStep tail := rfl
  have not_wide : ¬ 0x80 ≤ c.toNat := by omega
  cases written with
  | plain not_quote not_backslash not_newline =>
    have takes : step (.char Text.singleQuote) (([c, Text.singleQuote] ++ rest).map .char) =
        .token (.char c) [c, Text.singleQuote].length 3 := by
      rw [dispatch]
      simp [charStep, closeChar, not_quote, not_backslash, not_newline, not_wide]
    exact scans_token takes h
  | @escaped letter means _ =>
    have takes : step (.char Text.singleQuote)
        ((['\\', letter, Text.singleQuote] ++ rest).map .char) =
        .token (.char c) ['\\', letter, Text.singleQuote].length 4 := by
      have not_quote : '\\' ≠ Text.singleQuote := by decide
      rw [dispatch]
      simp [charStep, closeChar, not_quote, means, not_wide]
    exact scans_token takes h

end Token

end LittleLisp
