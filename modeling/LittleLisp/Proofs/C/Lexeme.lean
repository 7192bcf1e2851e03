import LittleLisp.C.Expr
import LittleLisp.Proofs.C.Name
import LittleLisp.Proofs.Text.Literal

/-!
# C text as lexemes

The text of a C body is cut into lexemes by the rules of C: a word, a number and a mark are as long
as they can be, a character or string literal is one lexeme, and white space only separates. This
is a reader of C in its own right. It knows all marks of C, so that two of them that stand side by
side would be read as C reads them, and not as it would suit the text that lowering makes. Its tables
of operators and words are those of C, and what lowering writes has to agree with them
(`ofMark_symbol`, `mem_keywords_of_mem_words`).

The second half shows what the parts of a lowered body are read as. A word or a number is read in
full only before something that cannot make it longer, which is what `Breaks` says.
-/

namespace LittleLisp.C

/-- A lexeme of C. Words and marks that structure a body have their own constructors. -/
inductive Lexeme where
  | word (spelling : String)
  | number (text : List Char)
  /-- A character or string literal, with its quotes and escapes. -/
  | literal (text : List Char)
  | operator (op : BinaryOp)
  | opening | closing
  | blockOpening | blockClosing
  | question | colon | comma | semicolon
  | ifWord | returnWord
  /-- Any other word of C itself. -/
  | keyword (spelling : String)
  /-- Any other mark of C. -/
  | mark (text : String)
deriving DecidableEq, Repr

namespace Lexeme

/-- The binary operators by their marks in C. -/
def operators : List (String × BinaryOp) :=
  [("+", .add), ("-", .sub), ("*", .mul), ("/", .div), (">", .gt), ("<", .lt), (">=", .ge),
   ("<=", .le), ("==", .eq), ("!=", .ne)]

/-- The other words that C keeps for itself. -/
def words : List String :=
  ["auto", "break", "case", "char", "const", "continue", "default", "do", "double", "else", "enum",
   "extern", "float", "for", "goto", "inline", "int", "long", "register", "restrict", "short",
   "signed", "sizeof", "static", "struct", "switch", "typedef", "union", "unsigned", "void",
   "volatile", "while", "_Alignas", "_Alignof", "_Atomic", "_Bool", "_Complex", "_Generic",
   "_Imaginary", "_Noreturn", "_Static_assert", "_Thread_local"]

/-- The lexeme of a word. -/
def ofWord (text : List Char) : Lexeme :=
  let spelling := String.ofList text
  if spelling = "if" then ifWord
  else if spelling = "return" then returnWord
  else if words.contains spelling then keyword spelling
  else word spelling

/-- The lexeme of a mark. -/
def ofMark (text : String) : Lexeme :=
  if text = "(" then opening
  else if text = ")" then closing
  else if text = "\x7b" then blockOpening
  else if text = "\x7d" then blockClosing
  else if text = "?" then question
  else if text = ":" then colon
  else if text = "," then comma
  else if text = ";" then semicolon
  else match operators.lookup text with
    | some op => operator op
    | none => mark text

/-- What lowering writes for an operator is that operator in C. -/
theorem ofMark_symbol (op : BinaryOp) : ofMark op.symbol = operator op := by
  cases op <;> rfl

/-- Lowering avoids all words of C. -/
theorem mem_keywords_of_mem_words : ∀ word ∈ words, word ∈ keywords := by
  decide

end Lexeme

/-- The marks of C, longer ones before the marks that they start with. -/
def marks : List String :=
  ["%:%:", "...", "<<=", ">>=", "->", "++", "--", "<<", ">>", "<=", ">=", "==", "!=", "&&", "||",
   "*=", "/=", "%=", "+=", "-=", "&=", "^=", "|=", "##", "<:", ":>", "<%", "%>", "%:", "::", "[",
   "]", "(", ")", "\x7b", "\x7d", ".", "&", "*", "+", "-", "~", "!", "/", "%", "<", ">", "^", "|",
   "?", ":", ";", "=", ",", "#"]

/-- The marks that start a comment. Lowered bodies have no comments, and the reader takes none. -/
def commentStarts : List String :=
  ["//", "/*"]

/-- The first of some marks that a text starts with. -/
def leadingMark? (candidates : List String) (text : List Char) : Option String :=
  candidates.find? fun m => m.toList.isPrefixOf text

/-- White space of C. -/
def isSpace (c : Char) : Bool :=
  c == ' ' || (decide (9 ≤ c.toNat) && decide (c.toNat ≤ 13))

/-- A character that makes a number longer. -/
def isNumberPart (c : Char) : Bool :=
  isNamePart c || c == '.'

/-- How many characters a literal goes on after its opening quote, the closing one included. A
backslash takes the next character with it, and a literal does not go over the end of a line. -/
def literalLength? (quote : Char) : List Char → Option Nat
  | [] => none
  | c :: rest =>
    if c = quote then some 1
    else if c = '\n' then none
    else if c = '\\' then
      match rest with
      | [] => none
      | escaped :: rest => if escaped = '\n' then none else (literalLength? quote rest).map (· + 2)
    else (literalLength? quote rest).map (· + 1)

/-- The lexeme that starts with `c`, which is no white space, and how many more characters it
takes. -/
def lexeme? (c : Char) (rest : List Char) : Option (Lexeme × Nat) :=
  if isNameStart c then
    let tail := rest.takeWhile isNamePart
    some (.ofWord (c :: tail), tail.length)
  else if isDecimal c then
    let tail := rest.takeWhile isNumberPart
    some (.number (c :: tail), tail.length)
  else if c = Text.doubleQuote ∨ c = Text.singleQuote then
    (literalLength? c rest).map fun n => (.literal (c :: rest.take n), n)
  else if (leadingMark? commentStarts (c :: rest)).isSome then none
  else (leadingMark? marks (c :: rest)).map fun m => (.ofMark m, m.length - 1)

/-- The lexemes of a text. -/
def lexemes : List Char → Option (List Lexeme)
  | [] => some []
  | c :: rest =>
    if isSpace c then lexemes rest
    else
      match lexeme? c rest with
      | some (x, more) => (lexemes (rest.drop more)).map (x :: ·)
      | none => none
termination_by text => text.length
decreasing_by
  · simp only [List.length_cons]; omega
  · simp only [List.length_drop, List.length_cons]; omega

/-! ## Steps of the reader -/

@[simp] theorem lexemes_nil : lexemes [] = some [] := by
  rw [lexemes]

theorem lexemes_space {c : Char} (h : isSpace c = true) (rest : List Char) :
    lexemes (c :: rest) = lexemes rest := by
  rw [lexemes, if_pos h]

theorem lexemes_step {c : Char} {rest : List Char} {x : Lexeme} {more : Nat}
    (hc : isSpace c = false) (h : lexeme? c rest = some (x, more)) :
    lexemes (c :: rest) = (lexemes (rest.drop more)).map (x :: ·) := by
  rw [lexemes, if_neg (by simp [hc]), h]

/-- A mark of one character, whatever follows. -/
theorem lexemes_single {c : Char} {rest : List Char} {x : Lexeme} (hc : isSpace c = false)
    (h : lexeme? c rest = some (x, 0)) : lexemes (c :: rest) = (lexemes rest).map (x :: ·) :=
  lexemes_step hc h

@[simp] theorem lexemes_blank (rest : List Char) : lexemes (' ' :: rest) = lexemes rest :=
  lexemes_space (by decide) rest

@[simp] theorem lexemes_opening (rest : List Char) :
    lexemes ('(' :: rest) = (lexemes rest).map (.opening :: ·) :=
  lexemes_single (c := '(') (by decide) rfl

@[simp] theorem lexemes_closing (rest : List Char) :
    lexemes (')' :: rest) = (lexemes rest).map (.closing :: ·) :=
  lexemes_single (c := ')') (by decide) rfl

@[simp] theorem lexemes_question (rest : List Char) :
    lexemes ('?' :: rest) = (lexemes rest).map (.question :: ·) :=
  lexemes_single (c := '?') (by decide) rfl

@[simp] theorem lexemes_comma (rest : List Char) :
    lexemes (',' :: rest) = (lexemes rest).map (.comma :: ·) :=
  lexemes_single (c := ',') (by decide) rfl

@[simp] theorem lexemes_semicolon (rest : List Char) :
    lexemes (';' :: rest) = (lexemes rest).map (.semicolon :: ·) :=
  lexemes_single (c := ';') (by decide) rfl

/-- A colon before a blank; with another mark it could be something else. -/
@[simp] theorem lexemes_colon (rest : List Char) :
    lexemes (':' :: ' ' :: rest) = (lexemes rest).map (.colon :: ·) := by
  rw [lexemes_single (c := ':') (x := .colon) (by decide) rfl, lexemes_blank]

/-- An operator before a blank is read as itself. -/
theorem lexeme?_operator (op : BinaryOp) (rest : List Char) :
    ∃ c tail, op.symbol.toList = c :: tail ∧ isSpace c = false ∧
      lexeme? c (tail ++ ' ' :: rest) = some (.operator op, tail.length) := by
  rw [← Lexeme.ofMark_symbol]
  cases op <;> exact ⟨_, _, rfl, by decide, rfl⟩

@[simp] theorem lexemes_operator (op : BinaryOp) (rest : List Char) :
    lexemes (op.symbol.toList ++ ' ' :: rest) = (lexemes rest).map (.operator op :: ·) := by
  obtain ⟨c, tail, symbol, solid, read⟩ := lexeme?_operator op rest
  rw [symbol, List.cons_append, lexemes_step solid read, List.drop_left, lexemes_blank]

/-! ## Words, numbers and literals -/

/-- What follows does not make a word or a number longer. -/
def Breaks (rest : List Char) : Prop :=
  ∀ c ∈ rest.head?, isNumberPart c = false

theorem breaks_cons {c : Char} (h : isNumberPart c = false) (rest : List Char) :
    Breaks (c :: rest) := by
  intro d hd
  obtain rfl := Option.some.inj hd
  exact h

theorem Breaks.word {rest : List Char} (h : Breaks rest) :
    ∀ c ∈ rest.head?, isNamePart c = false := by
  intro c hc
  have both := h c hc
  simp only [isNumberPart, Bool.or_eq_false_iff] at both
  exact both.1

theorem not_isSpace_of_isNamePart {c : Char} (h : isNamePart c = true) : isSpace c = false := by
  apply Bool.eq_false_iff.2
  intro space
  simp only [isSpace, Bool.or_eq_true, beq_iff_eq, Bool.and_eq_true, decide_eq_true_eq] at space
  rcases space with rfl | space
  · exact absurd h (by decide)
  · have codes : ∀ n : Fin 14, isNamePart (Char.ofNat n) = false := by decide
    have := codes ⟨c.toNat, by omega⟩
    simp [h] at this

/-- A C identifier is read as one word. -/
theorem lexemes_word {name rest : List Char} (hname : isIdentifier name = true)
    (hrest : Breaks rest) :
    lexemes (name ++ rest) = (lexemes rest).map (.ofWord name :: ·) := by
  cases name with
  | nil => simp [isIdentifier] at hname
  | cons c tail =>
    simp only [isIdentifier, Bool.and_eq_true, List.all_eq_true] at hname
    have run : (tail ++ rest).takeWhile isNamePart = tail := Text.takeWhile_run hname.2 hrest.word
    have read : lexeme? c (tail ++ rest) = some (.ofWord (c :: tail), tail.length) := by
      simp only [lexeme?, hname.1, if_true, run]
    have solid := not_isSpace_of_isNamePart (isNamePart_of_isNameStart hname.1)
    rw [List.cons_append, lexemes_step solid read, List.drop_left]

theorem not_isNameStart_of_isDecimal {c : Char} (h : isDecimal c = true) :
    isNameStart c = false := by
  have bounds := Text.isDecimal_iff.1 h
  have codes : ∀ n : Fin 58, 48 ≤ n.val → isNameStart (Char.ofNat n) = false := by decide
  have := codes ⟨c.toNat, by omega⟩ bounds.1
  rwa [Char.ofNat_toNat] at this

/-- Digits are read as one number. -/
theorem lexemes_number {digits rest : List Char} (hne : digits ≠ [])
    (hdigits : ∀ c ∈ digits, isDecimal c = true) (hrest : Breaks rest) :
    lexemes (digits ++ rest) = (lexemes rest).map (.number digits :: ·) := by
  cases digits with
  | nil => exact absurd rfl hne
  | cons c tail =>
    have first : isDecimal c = true := hdigits c (by simp)
    have later : ∀ d ∈ tail, isNumberPart d = true := by
      intro d hd
      simp [isNumberPart, isNamePart_of_isDecimal (hdigits d (List.mem_cons_of_mem _ hd))]
    have run : (tail ++ rest).takeWhile isNumberPart = tail := Text.takeWhile_run later hrest
    have read : lexeme? c (tail ++ rest) = some (.number (c :: tail), tail.length) := by
      simp [lexeme?, not_isNameStart_of_isDecimal first, first, run]
    have solid := not_isSpace_of_isNamePart (isNamePart_of_isDecimal first)
    rw [List.cons_append, lexemes_step solid read, List.drop_left]

/-- A minus sign before a digit is a mark of its own. -/
theorem lexemes_minus {c : Char} (h : isDecimal c = true) (rest : List Char) :
    lexemes ('-' :: c :: rest) = (lexemes (c :: rest)).map (.operator .sub :: ·) := by
  have bounds := Text.isDecimal_iff.1 h
  have other {d : Char} (hd : d.toNat < 48 ∨ 57 < d.toNat) : d ≠ c := by
    rintro rfl
    omega
  -- Of the marks that start with a minus sign, the longer ones do not go on with a digit.
  have found : leadingMark? marks ('-' :: c :: rest) = some "-" := by
    simp [leadingMark?, marks, other (d := '>') (by decide), other (d := '-') (by decide),
      other (d := '=') (by decide)]
  have comment : leadingMark? commentStarts ('-' :: c :: rest) = none := rfl
  refine lexemes_single (c := '-') (by decide) ?_
  rw [lexeme?, if_neg (by decide), if_neg (by decide), if_neg (by decide), comment, found]
  rfl

/-- The lexemes of an integer constant. -/
def intLexemes (n : Int) : List Lexeme :=
  if 0 ≤ n then [.number (Nat.toDigits 10 n.toNat)]
  else [.operator .sub, .number (Nat.toDigits 10 (-n).toNat)]

theorem lexemes_int (n : Int) {rest : List Char} (h : Breaks rest) :
    lexemes ((toString n).toList ++ rest) = (lexemes rest).map (intLexemes n ++ ·) := by
  have digits (k : Nat) : ∀ c ∈ Nat.toDigits 10 k, isDecimal c = true :=
    fun c hc => Text.isDecimal_of_mem_toDigits hc
  unfold intLexemes
  split
  · next nonneg =>
    rw [Text.intChars_of_nonneg nonneg, lexemes_number Nat.toDigits_ne_nil (digits _) h]
    rfl
  · next negative =>
    have whole := lexemes_number Nat.toDigits_ne_nil (digits (-n).toNat) h
    rw [Text.intChars_of_neg (by omega), List.cons_append]
    cases shape : Nat.toDigits 10 (-n).toNat with
    | nil => exact absurd shape Nat.toDigits_ne_nil
    | cons c tail =>
      rw [shape] at whole
      rw [List.cons_append, lexemes_minus (digits (-n).toNat c (by simp [shape])),
        ← List.cons_append, whole, Option.map_map]
      rfl

theorem literalLength?_plain {quote c : Char} (not_quote : c ≠ quote) (not_backslash : c ≠ '\\')
    (not_newline : c ≠ '\n') (rest : List Char) :
    literalLength? quote (c :: rest) = (literalLength? quote rest).map (· + 1) := by
  rw [literalLength?.eq_def]
  simp [not_quote, not_backslash, not_newline]

theorem literalLength?_escaped {quote letter : Char} (hq : quote ≠ '\\')
    (not_newline : letter ≠ '\n') (rest : List Char) :
    literalLength? quote ('\\' :: letter :: rest) = (literalLength? quote rest).map (· + 2) := by
  rw [literalLength?.eq_def]
  simp [hq.symm, not_newline]

/-- A literal ends at its closing quote. -/
theorem literalLength?_literal {quote : Char} (hq : Text.IsQuote quote) (s rest : List Char) :
    literalLength? quote ((s.flatMap (Text.literalChar quote) ++ [quote]) ++ rest) =
      some (s.flatMap (Text.literalChar quote) ++ [quote]).length := by
  induction s with
  | nil =>
    rw [literalLength?.eq_def]
    simp
  | cons c s ih =>
    simp only [List.flatMap_cons, List.append_assoc] at ih ⊢
    have written := Text.written_literalChar hq c
    generalize Text.literalChar quote c = text at written
    cases written with
    | plain not_quote not_backslash not_newline =>
      rw [List.singleton_append, literalLength?_plain not_quote not_backslash not_newline, ih]
      rfl
    | escaped means not_newline =>
      rw [List.cons_append, List.singleton_append,
        literalLength?_escaped hq.ne_backslash not_newline, ih]
      rfl

/-- A literal is one lexeme, whatever follows. -/
theorem lexemes_literal {quote : Char} (hq : quote = Text.doubleQuote ∨ quote = Text.singleQuote)
    (s rest : List Char) :
    lexemes (Text.literal quote s ++ rest) =
      (lexemes rest).map (.literal (Text.literal quote s) :: ·) := by
  have is_quote : Text.IsQuote quote := by
    rcases hq with rfl | rfl
    · exact Text.isQuote_double
    · exact Text.isQuote_single
  have plain : isSpace quote = false ∧ isNameStart quote = false ∧ isDecimal quote = false := by
    rcases hq with rfl | rfl <;> decide
  obtain ⟨solid, not_start, not_decimal⟩ := plain
  have length := literalLength?_literal is_quote s rest
  rw [Text.literal, List.cons_append]
  generalize s.flatMap (Text.literalChar quote) ++ [quote] = closed at length
  have read : lexeme? quote (closed ++ rest) = some (.literal (quote :: closed), closed.length) := by
    simp [lexeme?, not_start, not_decimal, hq, length]
  rw [List.cons_append, lexemes_step solid read, List.drop_left]

end LittleLisp.C
