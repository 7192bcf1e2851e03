import LittleLisp.Lowering
import LittleLisp.Proofs.C.Lexeme
import LittleLisp.Tree.Reader
import Mathlib.Data.List.Chain
import Mathlib.Data.List.TakeWhile

/-!
# What a C literal stands for

A character or string constant is lowered to one literal of C. C reads the escapes of a literal by
rules of its own, and an octal escape takes as many digits as there are, up to three. The escape `\0`
that is written for the character NUL is one of these: if a digit follows in the string, C reads both
as one character (`bytes?_literal`). So a literal stands for its string exactly if no NUL comes before
an octal digit, and a literal of one character always does (`constant_denotes`).
-/

namespace LittleLisp

namespace C

/-- The characters of C's simple escapes, by the letter after the backslash. -/
def simpleEscapes : List (Char × Char) :=
  [('n', '\n'), ('t', '\t'), ('r', '\r'), ('a', '\x07'), ('b', '\x08'), ('f', '\x0c'), ('v', '\x0b'),
   ('\\', '\\'), (Text.doubleQuote, Text.doubleQuote), (Text.singleQuote, Text.singleQuote),
   ('?', '?')]

/-- A digit of an octal escape. -/
def isOctal (c : Char) : Bool :=
  decide (48 ≤ c.toNat) && decide (c.toNat ≤ 55)

/-- The octal digits that a text starts with, but not more than `most`. -/
def octalDigits (most : Nat) (text : List Char) : List Char :=
  (text.take most).takeWhile isOctal

/-- The number of octal digits. -/
def octalValue (digits : List Char) : Nat :=
  digits.foldl (fun n d => n * 8 + (d.toNat - 48)) 0

/-- The bytes of a literal, from behind its opening quote up to a closing one that ends the text. What
is no escape stands for its own bytes. Escapes that are neither simple nor octal are not read. -/
def bodyBytes? (quote : Char) : List Char → Option (List UInt8)
  | [] => none
  | c :: rest =>
    if c = quote then if rest = [] then some [] else none
    else if c = '\n' then none
    else if c = '\\' then
      match rest with
      | [] => none
      | letter :: more =>
        match simpleEscapes.lookup letter with
        | some d => (bodyBytes? quote more).map (String.utf8EncodeChar d ++ ·)
        | none =>
          let digits := octalDigits 3 (letter :: more)
          if digits = [] ∨ 256 ≤ octalValue digits then none
          else (bodyBytes? quote (more.drop (digits.length - 1))).map
            ((octalValue digits).toUInt8 :: ·)
    else (bodyBytes? quote rest).map (String.utf8EncodeChar c ++ ·)
termination_by text => text.length
decreasing_by
  all_goals simp only [List.length_drop, List.length_cons]; omega

/-- The bytes that a character or string literal of C stands for. -/
def bytes? : List Char → Option (List UInt8)
  | [] => none
  | quote :: rest =>
    if quote = Text.doubleQuote ∨ quote = Text.singleQuote then bodyBytes? quote rest else none

/-- The bytes that C reads from the literal of a string: NUL takes octal digits that follow it. -/
def asRead : List Char → List UInt8
  | [] => []
  | c :: rest =>
    if c = '\x00' then
      (octalValue (octalDigits 2 rest)).toUInt8 :: asRead (rest.drop (octalDigits 2 rest).length)
    else String.utf8EncodeChar c ++ asRead rest
termination_by text => text.length
decreasing_by
  all_goals simp only [List.length_drop, List.length_cons]; omega

variable {quote : Char}

/-! ## Characters in literals -/

/-- The ways in which a character is written in a literal, as C reads them. -/
inductive Escaped (quote c : Char) : List Char → Prop where
  | nul (nul : c = '\x00') : Escaped quote c ['\\', '0']
  | simple {letter : Char} (means : simpleEscapes.lookup letter = some c) (not_nul : c ≠ '\x00')
      (not_octal : isOctal c = false) : Escaped quote c ['\\', letter]
  | plain (not_quote : c ≠ quote) (not_newline : c ≠ '\n') (not_backslash : c ≠ '\\')
      (not_nul : c ≠ '\x00') : Escaped quote c [c]

theorem escapeLetter?_cases (c : Char) :
    (∃ letter, Text.escapeLetter? c = some letter ∧
      (c, letter) ∈ [('\x00', '0'), ('\n', 'n'), ('\t', 't'), ('\r', 'r')]) ∨
    (Text.escapeLetter? c = none ∧ c ≠ '\x00' ∧ c ≠ '\n') := by
  have eq_of_code {n : Nat} (h : c.toNat = n) : c = Char.ofNat n := by
    rw [← h, Char.ofNat_toNat]
  unfold Text.escapeLetter?
  split
  · next code => exact .inl ⟨_, rfl, by simp [eq_of_code code]⟩
  · next code => exact .inl ⟨_, rfl, by simp [eq_of_code code]⟩
  · next code => exact .inl ⟨_, rfl, by simp [eq_of_code code]⟩
  · next code => exact .inl ⟨_, rfl, by simp [eq_of_code code]⟩
  · next not_newline _ _ not_nul =>
    refine .inr ⟨rfl, ?_, ?_⟩
    · rintro rfl
      exact not_nul rfl
    · rintro rfl
      exact not_newline rfl

theorem escaped_literalChar (hq : quote = Text.doubleQuote ∨ quote = Text.singleQuote) (c : Char) :
    Escaped quote c (Text.literalChar quote c) := by
  unfold Text.literalChar
  split
  · next backslash =>
    subst backslash
    exact .simple (by decide) (by decide) (by decide)
  · next not_backslash =>
    rcases escapeLetter?_cases c with ⟨letter, chosen, member⟩ | ⟨none, not_nul, not_newline⟩
    · rw [chosen]
      simp only [List.mem_cons, Prod.mk.injEq, List.not_mem_nil, or_false] at member
      rcases member with ⟨rfl, rfl⟩ | ⟨rfl, rfl⟩ | ⟨rfl, rfl⟩ | ⟨rfl, rfl⟩
      · exact .nul rfl
      · exact .simple (by decide) (by decide) (by decide)
      · exact .simple (by decide) (by decide) (by decide)
      · exact .simple (by decide) (by decide) (by decide)
    · rw [none]
      simp only
      split
      · next is_quote =>
        subst is_quote
        rcases hq with rfl | rfl
        · exact .simple (by decide) (by decide) (by decide)
        · exact .simple (by decide) (by decide) (by decide)
      · next not_quote => exact .plain not_quote not_newline not_backslash not_nul

/-! ## Escapes that C reads -/

theorem bodyBytes?_plain {c : Char} (not_quote : c ≠ quote) (not_newline : c ≠ '\n')
    (not_backslash : c ≠ '\\') (rest : List Char) :
    bodyBytes? quote (c :: rest) = (bodyBytes? quote rest).map (String.utf8EncodeChar c ++ ·) := by
  rw [bodyBytes?.eq_def]
  simp [not_quote, not_newline, not_backslash]

theorem bodyBytes?_simple {c letter : Char} (hq : Text.IsQuote quote)
    (means : simpleEscapes.lookup letter = some c) (rest : List Char) :
    bodyBytes? quote ('\\' :: letter :: rest) =
      (bodyBytes? quote rest).map (String.utf8EncodeChar c ++ ·) := by
  rw [bodyBytes?.eq_def]
  simp [hq.ne_backslash.symm, means]

theorem octalValue_lt {digits : List Char} (octal : ∀ d ∈ digits, isOctal d = true)
    (few : digits.length ≤ 2) : octalValue digits < 256 := by
  have small {d : Char} (hd : isOctal d = true) : d.toNat ≤ 55 := by
    simp only [isOctal, Bool.and_eq_true, decide_eq_true_eq] at hd
    exact hd.2
  match digits, octal, few with
  | [], _, _ => decide
  | [a], octal, _ =>
    have := small (octal a (by simp))
    simp only [octalValue, List.foldl_cons, List.foldl_nil]
    omega
  | [a, b], octal, _ =>
    have := small (octal a (by simp))
    have := small (octal b (by simp))
    simp only [octalValue, List.foldl_cons, List.foldl_nil]
    omega

/-- The escape of NUL is read together with the octal digits behind it. -/
theorem bodyBytes?_nul (hq : Text.IsQuote quote) (rest : List Char) :
    bodyBytes? quote ('\\' :: '0' :: rest) =
      (bodyBytes? quote (rest.drop (octalDigits 2 rest).length)).map
        ((octalValue (octalDigits 2 rest)).toUInt8 :: ·) := by
  have digits : octalDigits 3 ('0' :: rest) = '0' :: octalDigits 2 rest := by
    rw [octalDigits, List.take_succ_cons, List.takeWhile_cons_of_pos (by decide), octalDigits]
  have value : octalValue ('0' :: octalDigits 2 rest) = octalValue (octalDigits 2 rest) := rfl
  have octal : ∀ d ∈ octalDigits 2 rest, isOctal d = true := fun d hd => List.mem_takeWhile_imp hd
  have few : (octalDigits 2 rest).length ≤ 2 :=
    (List.takeWhile_prefix _).length_le.trans (List.length_take_le 2 rest)
  have small := octalValue_lt octal few
  have no_simple : simpleEscapes.lookup '0' = none := by decide
  rw [bodyBytes?.eq_def]
  simp [hq.ne_backslash.symm, no_simple, digits, value, Nat.not_le.2 small]

/-! ## Strings in literals -/

theorem octalDigits_of_not_octal {c : Char} (h : isOctal c = false) (n : Nat) (rest : List Char) :
    octalDigits n (c :: rest) = [] := by
  cases n with
  | zero => rfl
  | succ n => simp [octalDigits, h]

theorem octalDigits_cons {c : Char} (h : isOctal c = true) (n : Nat) (rest : List Char) :
    octalDigits (n + 1) (c :: rest) = c :: octalDigits n rest := by
  simp [octalDigits, h]

/-- What stands in a literal behind its opening quote. -/
def body (quote : Char) (s : List Char) : List Char :=
  s.flatMap (Text.literalChar quote) ++ [quote]

theorem body_cons (quote c : Char) (s : List Char) :
    body quote (c :: s) = Text.literalChar quote c ++ body quote s := by
  rw [body, List.flatMap_cons, List.append_assoc, body]

theorem literalChar_of_octal (hq : quote = Text.doubleQuote ∨ quote = Text.singleQuote) {c : Char}
    (octal : isOctal c = true) : Text.literalChar quote c = [c] := by
  have written := escaped_literalChar hq c
  generalize Text.literalChar quote c = text at written ⊢
  cases written with
  | nul nul => simp [nul, isOctal] at octal
  | simple means not_nul not_octal => simp [not_octal] at octal
  | plain => rfl

/-- What is no octal digit is not written as one. -/
theorem octalDigits_literalChar (hq : quote = Text.doubleQuote ∨ quote = Text.singleQuote) {c : Char}
    (not_octal : isOctal c = false) (n : Nat) (rest : List Char) :
    octalDigits n (Text.literalChar quote c ++ rest) = [] := by
  have written := escaped_literalChar hq c
  generalize Text.literalChar quote c = text at written
  cases written with
  | nul => exact octalDigits_of_not_octal (by decide) n _
  | simple => exact octalDigits_of_not_octal (by decide) n _
  | plain => exact octalDigits_of_not_octal not_octal n _

/-- In a literal the octal digits that a string starts with stand as they are. -/
theorem octalDigits_body (hq : quote = Text.doubleQuote ∨ quote = Text.singleQuote) (n : Nat)
    (s : List Char) :
    octalDigits n (body quote s) = octalDigits n s ∧
      (body quote s).drop (octalDigits n s).length =
        body quote (s.drop (octalDigits n s).length) := by
  induction s generalizing n with
  | nil =>
    have not_octal : isOctal quote = false := by
      rcases hq with rfl | rfl <;> decide
    have none : octalDigits n [] = [] := by simp [octalDigits]
    rw [none]
    exact ⟨octalDigits_of_not_octal not_octal n [], rfl⟩
  | cons c rest ih =>
    rw [body_cons]
    cases octal : isOctal c with
    | false =>
      rw [octalDigits_of_not_octal octal, octalDigits_literalChar hq octal, List.length_nil,
        List.drop_zero, List.drop_zero, body_cons]
      exact ⟨rfl, rfl⟩
    | true =>
      rw [literalChar_of_octal hq octal, List.singleton_append]
      cases n with
      | zero =>
        refine ⟨rfl, ?_⟩
        rw [show octalDigits 0 (c :: rest) = [] from rfl, List.length_nil, List.drop_zero,
          List.drop_zero, body_cons, literalChar_of_octal hq octal, List.singleton_append]
      | succ n =>
        obtain ⟨digits, left⟩ := ih n
        rw [octalDigits_cons octal, octalDigits_cons octal, digits, List.length_cons,
          List.drop_succ_cons, List.drop_succ_cons]
        exact ⟨rfl, left⟩

/-- What C reads from the literal of a string. -/
theorem bodyBytes?_body (hq : quote = Text.doubleQuote ∨ quote = Text.singleQuote) (s : List Char) :
    bodyBytes? quote (body quote s) = some (asRead s) := by
  have is_quote : Text.IsQuote quote := by
    rcases hq with rfl | rfl
    · exact Text.isQuote_double
    · exact Text.isQuote_single
  induction s using asRead.induct with
  | case1 =>
    rw [bodyBytes?.eq_def, asRead]
    simp [body]
  | case2 rest ih =>
    obtain ⟨digits, left⟩ := octalDigits_body hq 2 rest
    rw [body_cons, show Text.literalChar quote '\x00' = ['\\', '0'] from rfl, List.cons_append,
      List.singleton_append, bodyBytes?_nul is_quote, digits, left, ih, asRead, if_pos rfl]
    rfl
  | case3 c rest not_nul ih =>
    rw [body_cons, asRead, if_neg not_nul]
    have written := escaped_literalChar hq c
    generalize Text.literalChar quote c = text at written
    cases written with
    | nul nul => exact absurd nul not_nul
    | simple means =>
      rw [List.cons_append, List.singleton_append, bodyBytes?_simple is_quote means, ih]
      rfl
    | plain not_quote not_newline not_backslash =>
      rw [List.singleton_append, bodyBytes?_plain not_quote not_newline not_backslash, ih]
      rfl

theorem bytes?_literal (hq : quote = Text.doubleQuote ∨ quote = Text.singleQuote) (s : List Char) :
    bytes? (Text.literal quote s) = some (asRead s) := by
  rw [Text.literal, List.cons_append, bytes?, if_pos hq]
  exact bodyBytes?_body hq s

/-! ## What C reads differently -/

/-- The bytes of a text. -/
def bytesOf (s : List Char) : List UInt8 :=
  s.flatMap String.utf8EncodeChar

theorem bytesOf_cons (c : Char) (s : List Char) :
    bytesOf (c :: s) = String.utf8EncodeChar c ++ bytesOf s := by
  rw [bytesOf, List.flatMap_cons, bytesOf]

theorem bytesOf_nul (s : List Char) : bytesOf ('\x00' :: s) = 0 :: bytesOf s :=
  bytesOf_cons _ s

theorem length_le_bytesOf (s : List Char) : s.length ≤ (bytesOf s).length := by
  induction s with
  | nil => exact Nat.le_refl 0
  | cons c rest ih =>
    have one : 1 ≤ (String.utf8EncodeChar c).length := by
      rw [String.length_utf8EncodeChar]
      exact c.utf8Size_pos
    rw [bytesOf_cons, List.length_append, List.length_cons]
    omega

/-- What is taken from the front of a text takes at least as many bytes with it. -/
theorem length_bytesOf_drop (n : Nat) (s : List Char) (le : n ≤ s.length) :
    n + (bytesOf (s.drop n)).length ≤ (bytesOf s).length := by
  have split : bytesOf s = bytesOf (s.take n) ++ bytesOf (s.drop n) := by
    rw [bytesOf, bytesOf, bytesOf, ← List.flatMap_append, List.take_append_drop]
  have front := length_le_bytesOf (s.take n)
  rw [List.length_take_of_le le] at front
  rw [split, List.length_append]
  omega

theorem length_octalDigits_le (n : Nat) (s : List Char) : (octalDigits n s).length ≤ s.length :=
  (List.takeWhile_prefix _).length_le.trans (List.length_take_le' n s)

theorem length_asRead_le (s : List Char) : (asRead s).length ≤ (bytesOf s).length := by
  induction s using asRead.induct with
  | case1 => simp [asRead]
  | case2 rest ih =>
    have less := length_bytesOf_drop _ rest (length_octalDigits_le 2 rest)
    rw [asRead, if_pos rfl, bytesOf_nul, List.length_cons, List.length_cons]
    omega
  | case3 c rest not_nul ih =>
    rw [asRead, if_neg not_nul, bytesOf_cons, List.length_append, List.length_append]
    omega

/-- C reads a string as it is exactly if no NUL stands before an octal digit. -/
theorem asRead_eq_iff (s : List Char) :
    asRead s = bytesOf s ↔ s.IsChain fun c d => c = '\x00' → isOctal d = false := by
  induction s using asRead.induct with
  | case1 => simp [asRead, bytesOf]
  | case2 rest ih =>
    rw [asRead, if_pos rfl, bytesOf_nul]
    cases rest with
    | nil => simp [asRead, bytesOf, octalDigits, octalValue]
    | cons d more =>
      rw [List.isChain_cons_cons]
      cases octal : isOctal d with
      | false =>
        rw [octalDigits_of_not_octal octal] at ih ⊢
        rw [List.length_nil, List.drop_zero] at ih ⊢
        simp [octalValue, ih]
      | true =>
        -- The digit is lost as a character, so too few bytes are read.
        have some_digit : 1 ≤ (octalDigits 2 (d :: more)).length := by
          rw [octalDigits_cons octal, List.length_cons]
          omega
        have less := length_bytesOf_drop _ (d :: more) (length_octalDigits_le 2 (d :: more))
        have read := length_asRead_le ((d :: more).drop (octalDigits 2 (d :: more)).length)
        constructor
        · intro same
          have lengths := congrArg List.length same
          rw [List.length_cons, List.length_cons] at lengths
          omega
        · rintro ⟨apart, -⟩
          exact absurd (apart rfl) (by decide)
  | case3 c rest not_nul ih =>
    rw [asRead, if_neg not_nul, bytesOf_cons, List.append_cancel_left_eq, ih]
    cases rest with
    | nil => simp
    | cons d more => simp [List.isChain_cons_cons, not_nul]

/-- C reads the text of an expression as one literal, and that stands for `bytes`. -/
def Expr.IsLiteralOf (e : Expr) (bytes : List UInt8) : Prop :=
  C.lexemes e.text.toList = some [.literal e.text.toList] ∧ bytes? e.text.toList = some bytes

theorem Expr.isLiteralOf_of_text {e : Expr}
    (hq : quote = Text.doubleQuote ∨ quote = Text.singleQuote) {s : List Char}
    (text : e.text.toList = Text.literal quote s) : e.IsLiteralOf (asRead s) := by
  have one := lexemes_literal hq s []
  rw [List.append_nil, lexemes_nil] at one
  refine ⟨?_, ?_⟩
  · rw [text]
    exact one
  · rw [text]
    exact bytes?_literal hq s

theorem asRead_singleton (c : Char) : asRead [c] = String.utf8EncodeChar c := by
  have alone := (asRead_eq_iff [c]).2 (List.isChain_singleton c)
  rw [alone, bytesOf, List.flatMap_singleton]

end C

theorem Source.bytes_ofString (s : String) : (Source.ofString s).bytes = C.bytesOf s.toList := by
  rw [Source.bytes, Source.ofString, List.flatMap_map, C.bytesOf]
  rfl

/-- A constant is lowered to one literal of C. A character's literal stands for the character. A
string's literal is read by C up to octal digits after a NUL, and it stands for the string exactly if
there are no such digits. -/
theorem Lowering.constant_denotes (t : SymbolTable) (s : Settings) (l : Location) :
    (∀ value : String, ∃ e, Lowering.expr t s (.str value l) = .ok e ∧
      e.IsLiteralOf (C.asRead value.toList) ∧
      (e.IsLiteralOf (Source.ofString value).bytes ↔
        value.toList.IsChain fun c d => c = '\x00' → C.isOctal d = false)) ∧
    ∀ value : Char, ∃ e, Lowering.expr t s (.char value l) = .ok e ∧
      e.IsLiteralOf (String.utf8EncodeChar value) := by
  refine ⟨fun value => ⟨.str value, rfl, ?_⟩, fun value => ⟨.char value, rfl, ?_⟩⟩
  · have read : (C.Expr.str value).IsLiteralOf (C.asRead value.toList) :=
      C.Expr.isLiteralOf_of_text (.inl rfl) String.toList_ofList
    refine ⟨read, Iff.trans ?_ (C.asRead_eq_iff value.toList)⟩
    rw [Source.bytes_ofString]
    constructor
    · intro same
      exact Option.some.inj (read.2.symm.trans same.2)
    · intro same
      exact same ▸ read
  · rw [← C.asRead_singleton]
    exact C.Expr.isLiteralOf_of_text (.inr rfl) String.toList_ofList

/-- The string of NUL and the digit one: its literal in the Lisp is the same text as the one in C, but
C reads a single character from it. -/
theorem Lowering.string_loses_nul :
    ∃ l, Node.parse "sample" (Source.ofString "\"\\01\"") = .ok [.str "\x001" l] ∧
      ∃ e, Lowering.expr .library {} (.str "\x001" l) = .ok e ∧ e.text = "\"\\01\"" ∧
        e.IsLiteralOf [1] ∧ ¬ e.IsLiteralOf (Source.ofString "\x001").bytes := by
  have text : (C.Expr.str "\x001").text = "\"\\01\"" := by decide
  have digits : C.octalDigits 2 ['1'] = ['1'] := by decide
  have lost : C.asRead ['\x00', '1'] = [1] := by
    rw [C.asRead, if_pos rfl, digits, C.octalValue, List.length_singleton, List.drop_one,
      List.tail_cons, C.asRead]
    rfl
  have read : (C.Expr.str "\x001").IsLiteralOf [1] :=
    lost ▸ C.Expr.isLiteralOf_of_text (.inl rfl) (by decide)
  refine ⟨⟨"sample", 1, 1, 5, none⟩, by with_unfolding_all rfl, .str "\x001", rfl, text, read, ?_⟩
  intro same
  exact absurd (read.2.symm.trans same.2) (by decide)

end LittleLisp
