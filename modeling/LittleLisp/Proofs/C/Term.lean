import LittleLisp.Proofs.C.Lexeme
import LittleLisp.Proofs.C.Mention

/-!
# C bodies read back from their text

A reader for the C that bodies are made of: operators and choices in parentheses of their own, calls,
integer constants, literals and names; and blocks of statements that return, return under a
condition, or evaluate an expression. The reader of expressions keeps what is open, innermost first,
so it takes one lexeme after the other and never goes back.

`read?_text` says that the text of a body has exactly one reading, the block of that body.
-/

namespace LittleLisp.C

/-- An expression as it is read. Literals are kept as they are written. -/
inductive Term where
  | number (value : Int)
  | literal (text : List Char)
  | name (spelling : String)
  | binary (op : BinaryOp) (left right : Term)
  | choice (condition yes no : Term)
  | call (function : String) (args : List Term)
deriving Repr

/-- A statement. -/
inductive Statement where
  | ret (result : Term)
  /-- Returns the result if the condition holds. -/
  | guarded (condition result : Term)
  /-- Evaluates an expression. -/
  | evaluate (e : Term)
deriving Repr

/-- The statements of a body, in order. -/
abbrev Block := List Statement

/-! ## The reader -/

/-- The value of a decimal constant. Another one that starts with a zero is none: it is octal. -/
def decimal? : List Char → Option Nat
  | [] => none
  | c :: rest =>
    if (c :: rest).all isDecimal && (rest.isEmpty || c != '0') then
      some (Nat.ofDigitChars 10 (c :: rest) 0)
    else none

/-- A part of an expression that is open: what has been read of it so far. -/
inductive Frame where
  /-- `( _` -/
  | group
  /-- `( left op _` -/
  | right (left : Term) (op : BinaryOp)
  /-- `( condition ? _` -/
  | yes (condition : Term)
  /-- `( condition ? yes : _` -/
  | no (condition yes : Term)
  /-- `function(done, _`, the last argument first -/
  | argument (function : String) (done : List Term)

mutual

/-- Reads the operand that comes next, and then the rest of what is open. -/
def operand? (open_ : List Frame) : List Lexeme → Option (Term × List Lexeme)
  | .number text :: rest =>
    match decimal? text with
    | some n => finish? open_ (.number n) rest
    | none => none
  | .operator .sub :: .number text :: rest =>
    match decimal? text with
    | some n => finish? open_ (.number (-n)) rest
    | none => none
  | .literal text :: rest => finish? open_ (.literal text) rest
  | .word function :: .opening :: .closing :: rest => finish? open_ (.call function []) rest
  | .word function :: .opening :: rest => operand? (.argument function [] :: open_) rest
  | .word spelling :: rest => finish? open_ (.name spelling) rest
  | .opening :: rest => operand? (.group :: open_) rest
  | _ => none

/-- Goes on after an operand. -/
def finish? (open_ : List Frame) (e : Term) (lexemes : List Lexeme) :
    Option (Term × List Lexeme) :=
  match open_, lexemes with
  | [], rest => some (e, rest)
  | .group :: outer, .operator op :: rest => operand? (.right e op :: outer) rest
  | .group :: outer, .question :: rest => operand? (.yes e :: outer) rest
  | .right left op :: outer, .closing :: rest => finish? outer (.binary op left e) rest
  | .yes condition :: outer, .colon :: rest => operand? (.no condition e :: outer) rest
  | .no condition yes :: outer, .closing :: rest => finish? outer (.choice condition yes e) rest
  | .argument function done :: outer, .comma :: rest =>
    operand? (.argument function (e :: done) :: outer) rest
  | .argument function done :: outer, .closing :: rest =>
    finish? outer (.call function (e :: done).reverse) rest
  | _, _ => none

end

/-- Reads an expression and its semicolon. -/
def endedTerm? (lexemes : List Lexeme) : Option (Term × List Lexeme) :=
  match operand? [] lexemes with
  | some (e, .semicolon :: rest) => some (e, rest)
  | _ => none

/-- Reads a statement. -/
def statement? : List Lexeme → Option (Statement × List Lexeme)
  | .returnWord :: rest => (endedTerm? rest).map fun (e, rest) => (.ret e, rest)
  | .ifWord :: .opening :: rest =>
    match operand? [] rest with
    | some (c, .closing :: .returnWord :: rest) =>
      (endedTerm? rest).map fun (e, rest) => (.guarded c e, rest)
    | _ => none
  | lexemes => (endedTerm? lexemes).map fun (e, rest) => (.evaluate e, rest)

/-- Reads statements up to the brace that closes the block and the text. -/
def statements? (lexemes : List Lexeme) : Option Block :=
  if lexemes = [.blockClosing] then some []
  else
    match statement? lexemes with
    | some (s, rest) =>
      if rest.length < lexemes.length then (statements? rest).map (s :: ·) else none
    | none => none
termination_by lexemes.length

/-- Reads the text of a body. -/
def Block.read? (text : String) : Option Block :=
  match lexemes text.toList with
  | some (.blockOpening :: rest) => statements? rest
  | _ => none

/-! ## From text to lexemes -/

/-! The equations of the text hold by definition. They stand here because unfolding a definition that
holds string literals is slow. -/

theorem Expr.chars_binary (op : BinaryOp) (left right : Expr) :
    (Expr.binary op left right).chars = "( ".toList ++ left.chars ++ ' ' :: op.symbol.toList ++
      ' ' :: right.chars ++ " )".toList := rfl

theorem Expr.chars_choice (condition yes no : Expr) :
    (Expr.choice condition yes no).chars = "( ".toList ++ condition.chars ++ " ? ".toList ++
      yes.chars ++ " : ".toList ++ no.chars ++ " )".toList := rfl

theorem Expr.chars_call (function : String) (args : List Expr) :
    (Expr.call function args).chars = function.toList ++ '(' :: Expr.argChars args ++ [')'] := rfl

theorem Expr.argChars_nil : Expr.argChars [] = [] := rfl

theorem Expr.argChars_cons (e next : Expr) (rest : List Expr) :
    Expr.argChars (e :: next :: rest) = e.chars ++ ',' :: ' ' :: Expr.argChars (next :: rest) := rfl

theorem clauseChars_eq (clause : Expr × Expr) :
    clauseChars clause = "if (".toList ++ clause.1.chars ++ ") return ".toList ++ clause.2.chars ++
      "; ".toList := rfl

theorem Body.chars_value (result : Expr) :
    (Body.value result).chars = "\x7b return ".toList ++ result.chars ++ " ; \x7d".toList := rfl

theorem Body.chars_cascade (clauses : List (Expr × Expr)) (trap : Option String) :
    (Body.cascade clauses trap).chars =
      "\x7b ".toList ++ clauses.flatMap clauseChars ++ trapChars trap ++ "\x7d".toList := rfl

mutual

/-- The lexemes of an expression. -/
def Expr.lexemes : Expr → List Lexeme
  | .int value => intLexemes value
  | .char value => [.literal (Text.literal Text.singleQuote [value])]
  | .str value => [.literal (Text.literal Text.doubleQuote value.toList)]
  | .ident spelling => [.word spelling]
  | .binary op left right =>
    .opening :: (left.lexemes ++ .operator op :: (right.lexemes ++ [.closing]))
  | .choice condition yes no =>
    .opening :: (condition.lexemes ++ .question :: (yes.lexemes ++ .colon ::
      (no.lexemes ++ [.closing])))
  | .call function args => .word function :: .opening :: (Expr.argLexemes args ++ [.closing])

/-- The lexemes of arguments, with commas between them. -/
def Expr.argLexemes : List Expr → List Lexeme
  | [] => []
  | [e] => e.lexemes
  | e :: next :: rest => e.lexemes ++ .comma :: Expr.argLexemes (next :: rest)

end

/-- A name that is no word of C is read as a word. -/
theorem IsName.ofWord {spelling : String} (h : IsName spelling) :
    Lexeme.ofWord spelling.toList = .word spelling := by
  have not_if : spelling ≠ "if" := by
    rintro rfl
    exact h.not_keyword (by decide)
  have not_return : spelling ≠ "return" := by
    rintro rfl
    exact h.not_keyword (by decide)
  have not_word : spelling ∉ Lexeme.words := fun word =>
    h.not_keyword (Lexeme.mem_keywords_of_mem_words spelling word)
  simp [Lexeme.ofWord, not_if, not_return, not_word]

theorem IsName.lexemes {spelling : String} (h : IsName spelling) {rest : List Char}
    (hrest : Breaks rest) :
    C.lexemes (spelling.toList ++ rest) = (C.lexemes rest).map (.word spelling :: ·) := by
  rw [lexemes_word h.identifier hrest, h.ofWord]

/-- Every name of a list of mentions can be read. -/
def Named (mentions : List Mention) : Prop :=
  ∀ x ∈ mentions, IsName x.spelling

theorem named_append {xs ys : List Mention} : Named (xs ++ ys) ↔ Named xs ∧ Named ys := by
  simp only [Named, List.mem_append, or_imp, forall_and]

mutual

/-- The text of an expression is read as its lexemes, before anything that ends a word. -/
theorem lexemes_chars (e : Expr) (named : Named e.mentions) {rest : List Char}
    (hrest : Breaks rest) :
    lexemes (e.chars ++ rest) = (lexemes rest).map (e.lexemes ++ ·) := by
  match e with
  | .int value => exact lexemes_int value hrest
  | .char value => exact lexemes_literal (Or.inr rfl) [value] rest
  | .str value => exact lexemes_literal (Or.inl rfl) value.toList rest
  | .ident spelling => exact (named (.value spelling) (by simp [Expr.mentions])).lexemes hrest
  | .binary op left right =>
    obtain ⟨named_left, named_right⟩ := named_append.1 named
    have ends (more : List Char) : Breaks (' ' :: more) := breaks_cons (by decide) more
    have text : (Expr.binary op left right).chars ++ rest = '(' :: ' ' :: (left.chars ++ ' ' ::
        (op.symbol.toList ++ ' ' :: (right.chars ++ ' ' :: ')' :: rest))) := by
      simp [Expr.chars_binary]
    rw [text, lexemes_opening, lexemes_blank, lexemes_chars left named_left (ends _), lexemes_blank,
      lexemes_operator, lexemes_chars right named_right (ends _), lexemes_blank, lexemes_closing]
    simp [Expr.lexemes, Function.comp_def]
  | .choice condition yes no =>
    obtain ⟨named_condition, named_both⟩ := named_append.1 named
    obtain ⟨named_yes, named_no⟩ := named_append.1 named_both
    have ends (more : List Char) : Breaks (' ' :: more) := breaks_cons (by decide) more
    have text : (Expr.choice condition yes no).chars ++ rest = '(' :: ' ' :: (condition.chars ++
        ' ' :: '?' :: ' ' :: (yes.chars ++ ' ' :: ':' :: ' ' :: (no.chars ++ ' ' :: ')' :: rest))) := by
      simp [Expr.chars_choice]
    rw [text, lexemes_opening, lexemes_blank, lexemes_chars condition named_condition (ends _),
      lexemes_blank, lexemes_question, lexemes_blank, lexemes_chars yes named_yes (ends _),
      lexemes_blank, lexemes_colon, lexemes_chars no named_no (ends _), lexemes_blank,
      lexemes_closing]
    simp [Expr.lexemes, Function.comp_def]
  | .call function args =>
    have function_named : IsName function := named (.callee function args.length) (by
      simp [Expr.mentions])
    have args_named : Named (Expr.mentionsAll args) := fun x hx => named x (by
      simp [Expr.mentions, hx])
    have text : (Expr.call function args).chars ++ rest =
        function.toList ++ '(' :: (Expr.argChars args ++ ')' :: rest) := by
      simp [Expr.chars_call]
    rw [text, function_named.lexemes (breaks_cons (by decide) _), lexemes_opening,
      lexemes_argChars args args_named (breaks_cons (by decide) _), lexemes_closing]
    simp [Expr.lexemes, Function.comp_def]

/-- The same for arguments. -/
theorem lexemes_argChars (args : List Expr) (named : Named (Expr.mentionsAll args))
    {rest : List Char} (hrest : Breaks rest) :
    lexemes (Expr.argChars args ++ rest) = (lexemes rest).map (Expr.argLexemes args ++ ·) := by
  match args with
  | [] => simp [Expr.argChars_nil, Expr.argLexemes]
  | [e] =>
    have named_first := (named_append.1 named).1
    exact lexemes_chars e named_first hrest
  | e :: next :: more =>
    obtain ⟨named_first, named_later⟩ := named_append.1 named
    have text : Expr.argChars (e :: next :: more) ++ rest =
        e.chars ++ ',' :: ' ' :: (Expr.argChars (next :: more) ++ rest) := by
      simp [Expr.argChars_cons]
    rw [text, lexemes_chars e named_first (breaks_cons (by decide) _), lexemes_comma, lexemes_blank,
      lexemes_argChars (next :: more) named_later hrest]
    simp [Expr.argLexemes, Function.comp_def]

end

/-! ## From lexemes to terms -/

mutual

/-- An expression as it is read. -/
def Expr.term : Expr → Term
  | .int value => .number value
  | .char value => .literal (Text.literal Text.singleQuote [value])
  | .str value => .literal (Text.literal Text.doubleQuote value.toList)
  | .ident spelling => .name spelling
  | .binary op left right => .binary op left.term right.term
  | .choice condition yes no => .choice condition.term yes.term no.term
  | .call function args => .call function (Expr.terms args)

/-- Expressions as they are read. -/
def Expr.terms : List Expr → List Term
  | [] => []
  | e :: rest => e.term :: Expr.terms rest

end

/-- The digits of a number are read as that number. -/
theorem decimal?_toDigits (n : Nat) : decimal? (Nat.toDigits 10 n) = some n := by
  have value := Nat.ofDigitChars_ten_toDigits (n := n)
  have digits : (Nat.toDigits 10 n).all isDecimal = true :=
    List.all_eq_true.2 fun c hc => Text.isDecimal_of_mem_toDigits hc
  cases shape : Nat.toDigits 10 n with
  | nil => exact absurd shape Nat.toDigits_ne_nil
  | cons c rest =>
    have plain : (rest.isEmpty || c != '0') = true := by
      rcases Nat.eq_zero_or_pos n with rfl | positive
      · obtain ⟨-, rfl⟩ : c = '0' ∧ rest = [] := by simpa using shape.symm
        rfl
      · have head := Text.head_toDigits_ne_zero n positive
        have : c ≠ '0' := by simpa [shape] using head
        simp [this]
    rw [shape] at value digits
    rw [decimal?, digits, plain, value]
    rfl

theorem operand?_int (open_ : List Frame) (n : Int) (rest : List Lexeme) :
    operand? open_ (intLexemes n ++ rest) = finish? open_ (.number n) rest := by
  unfold intLexemes
  split
  · next nonneg =>
    simp [operand?, decimal?_toDigits, Int.toNat_of_nonneg nonneg]
  · next negative =>
    have magnitude : -((-n).toNat : Int) = n := by omega
    simp only [List.cons_append, List.nil_append, operand?, decimal?_toDigits, magnitude]

/-- A word is a name unless an argument list follows. -/
theorem operand?_name (open_ : List Frame) (spelling : String) {rest : List Lexeme}
    (h : rest.head? ≠ some .opening) :
    operand? open_ (.word spelling :: rest) = finish? open_ (.name spelling) rest := by
  cases rest with
  | nil => rfl
  | cons x more =>
    cases x <;> first | rfl | exact absurd rfl h

/-- The argument list of a call is empty only if it closes at once. -/
theorem operand?_call (open_ : List Frame) (function : String) {x : Lexeme} (h : x ≠ .closing)
    (rest : List Lexeme) :
    operand? open_ (.word function :: .opening :: x :: rest) =
      operand? (.argument function [] :: open_) (x :: rest) := by
  cases x <;> first | rfl | exact absurd rfl h

/-- No expression starts with a closing parenthesis. -/
theorem Expr.lexemes_eq_cons (e : Expr) : ∃ x more, e.lexemes = x :: more ∧ x ≠ .closing := by
  cases e with
  | int value =>
    simp only [Expr.lexemes, intLexemes]
    split <;> exact ⟨_, _, rfl, by simp⟩
  | char | str | ident | binary | choice | call =>
    exact ⟨_, _, by rw [Expr.lexemes], by simp⟩

theorem Expr.argLexemes_eq_cons (e : Expr) (args : List Expr) :
    ∃ x more, Expr.argLexemes (e :: args) = x :: more ∧ x ≠ .closing := by
  obtain ⟨x, more, shape, not_closing⟩ := e.lexemes_eq_cons
  cases args with
  | nil => exact ⟨x, more, shape, not_closing⟩
  | cons next args =>
    refine ⟨x, more ++ .comma :: Expr.argLexemes (next :: args), ?_, not_closing⟩
    rw [Expr.argLexemes, shape, List.cons_append]

mutual

/-- The lexemes of an expression are read as its term, and then the reader goes on. -/
theorem operand?_lexemes (e : Expr) (open_ : List Frame) {rest : List Lexeme}
    (h : rest.head? ≠ some .opening) :
    operand? open_ (e.lexemes ++ rest) = finish? open_ e.term rest := by
  match e with
  | .int value => exact operand?_int open_ value rest
  | .char _ | .str _ => rfl
  | .ident spelling => exact operand?_name open_ spelling h
  | .binary op left right =>
    simp only [Expr.lexemes, List.cons_append, List.append_assoc, List.nil_append, operand?]
    rw [operand?_lexemes left _ (by simp), finish?, operand?_lexemes right _ (by simp), finish?,
      Expr.term]
  | .choice condition yes no =>
    simp only [Expr.lexemes, List.cons_append, List.append_assoc, List.nil_append, operand?]
    rw [operand?_lexemes condition _ (by simp), finish?, operand?_lexemes yes _ (by simp), finish?,
      operand?_lexemes no _ (by simp), finish?, Expr.term]
  | .call function [] => rfl
  | .call function (e :: args) =>
    have read := operand?_args function (e :: args) (by simp) [] open_ rest
    obtain ⟨x, more, shape, not_closing⟩ := Expr.argLexemes_eq_cons e args
    simp only [Expr.lexemes, List.cons_append, List.append_assoc, List.nil_append]
    rw [shape, List.cons_append] at read ⊢
    rw [operand?_call open_ function not_closing, read]
    rfl

/-- The arguments of a call are read up to the parenthesis that closes it. -/
theorem operand?_args (function : String) (args : List Expr) (hne : args ≠ []) (done : List Term)
    (open_ : List Frame) (rest : List Lexeme) :
    operand? (.argument function done :: open_) (Expr.argLexemes args ++ .closing :: rest) =
      finish? open_ (.call function (done.reverse ++ Expr.terms args)) rest := by
  match args with
  | [] => exact absurd rfl hne
  | [e] =>
    simp only [Expr.argLexemes]
    rw [operand?_lexemes e _ (by simp), finish?]
    simp [Expr.terms]
  | e :: next :: more =>
    simp only [Expr.argLexemes, List.append_assoc, List.cons_append]
    rw [operand?_lexemes e _ (by simp), finish?, operand?_args function (next :: more) (by simp)]
    simp [Expr.terms]

end

/-! ## Blocks -/

/-- The statement of a clause. -/
def clauseStatement (clause : Expr × Expr) : Statement :=
  .guarded clause.1.term clause.2.term

/-- The statements after the clauses of a cascade. -/
def trapStatements : Option String → Block
  | none => []
  | some function =>
    [.evaluate (.call trapName [.literal (Text.literal Text.doubleQuote function.toList)])]

/-- A body as it is read. -/
def Body.block : Body → Block
  | .value result => [.ret result.term]
  | .cascade clauses trap => clauses.map clauseStatement ++ trapStatements trap

/-- The lexemes of a clause. -/
def clauseLexemes (clause : Expr × Expr) : List Lexeme :=
  .ifWord :: .opening :: (clause.1.lexemes ++ .closing :: .returnWord ::
    (clause.2.lexemes ++ [.semicolon]))

/-- The lexemes of the call that ends a cascade. -/
def trapLexemes : Option String → List Lexeme
  | none => []
  | some function =>
    [.word trapName, .opening, .literal (Text.literal Text.doubleQuote function.toList), .closing,
      .semicolon]

theorem endedTerm?_lexemes (e : Expr) (rest : List Lexeme) :
    endedTerm? (e.lexemes ++ .semicolon :: rest) = some (e.term, rest) := by
  rw [endedTerm?, operand?_lexemes e [] (by simp), finish?]

theorem statements?_blockClosing : statements? [.blockClosing] = some [] := by
  rw [statements?, if_pos rfl]

theorem statements?_cons {lexemes rest : List Lexeme} {s : Statement}
    (read : statement? lexemes = some (s, rest)) (shorter : rest.length < lexemes.length) :
    statements? lexemes = (statements? rest).map (s :: ·) := by
  have not_end : lexemes ≠ [.blockClosing] := by
    rintro rfl
    cases read
  rw [statements?, if_neg not_end, read]
  simp only [shorter, if_true]

theorem statements?_clauses (clauses : List (Expr × Expr)) (rest : List Lexeme) :
    statements? (clauses.flatMap clauseLexemes ++ rest) =
      (statements? rest).map (clauses.map clauseStatement ++ ·) := by
  induction clauses with
  | nil => simp
  | cons clause clauses ih =>
    have read : statement? (clauseLexemes clause ++ (clauses.flatMap clauseLexemes ++ rest)) =
        some (clauseStatement clause, clauses.flatMap clauseLexemes ++ rest) := by
      simp only [clauseLexemes, List.cons_append, List.append_assoc, List.nil_append, statement?]
      rw [operand?_lexemes clause.1 [] (by simp), finish?]
      simp only [endedTerm?_lexemes]
      rfl
    rw [List.flatMap_cons, List.append_assoc,
      statements?_cons read (by simp [clauseLexemes]; omega), ih]
    simp [Function.comp_def]

theorem statements?_trap (trap : Option String) :
    statements? (trapLexemes trap ++ [.blockClosing]) = some (trapStatements trap) := by
  cases trap with
  | none => exact statements?_blockClosing
  | some function =>
    have read : statement? (trapLexemes (some function) ++ [.blockClosing]) =
        some (.evaluate (.call trapName [.literal (Text.literal Text.doubleQuote function.toList)]),
          [.blockClosing]) := rfl
    rw [statements?_cons read (by simp [trapLexemes]), statements?_blockClosing]
    rfl

/-! ## The text of a body -/

theorem lexemes_clauseChars (clause : Expr × Expr) (named : Named (clauseMentions clause))
    (rest : List Char) :
    lexemes (clauseChars clause ++ rest) = (lexemes rest).map (clauseLexemes clause ++ ·) := by
  obtain ⟨named_condition, named_result⟩ := named_append.1 named
  have text : clauseChars clause ++ rest = ['i', 'f'] ++ ' ' :: '(' :: (clause.1.chars ++ ')' ::
      ' ' :: (['r', 'e', 't', 'u', 'r', 'n'] ++ ' ' :: (clause.2.chars ++ ';' :: ' ' :: rest))) := by
    simp [clauseChars_eq]
  have ends {c : Char} (h : isNumberPart c = false) (more : List Char) : Breaks (c :: more) :=
    breaks_cons h more
  rw [text, lexemes_word (by decide) (ends (by decide) _), lexemes_blank, lexemes_opening,
    lexemes_chars clause.1 named_condition (ends (by decide) _), lexemes_closing, lexemes_blank,
    lexemes_word (by decide) (ends (by decide) _), lexemes_blank,
    lexemes_chars clause.2 named_result (ends (by decide) _), lexemes_semicolon, lexemes_blank]
  simp only [Option.map_map]
  congr 1
  funext more
  simp [clauseLexemes, Lexeme.ofWord]

theorem lexemes_clauses (clauses : List (Expr × Expr))
    (named : Named (clauses.flatMap clauseMentions)) (rest : List Char) :
    lexemes (clauses.flatMap clauseChars ++ rest) =
      (lexemes rest).map (clauses.flatMap clauseLexemes ++ ·) := by
  induction clauses with
  | nil => simp
  | cons clause clauses ih =>
    rw [List.flatMap_cons] at named
    obtain ⟨named_first, named_later⟩ := named_append.1 named
    rw [List.flatMap_cons, List.append_assoc, lexemes_clauseChars clause named_first,
      ih named_later]
    simp [Function.comp_def]

theorem lexemes_trapChars (trap : Option String) (rest : List Char) :
    lexemes (trapChars trap ++ rest) = (lexemes rest).map (trapLexemes trap ++ ·) := by
  cases trap with
  | none => simp [trapChars, trapLexemes]
  | some function =>
    have name : IsName trapName := ⟨by decide, by decide⟩
    have text : trapChars (some function) ++ rest = trapName.toList ++ '(' ::
        (Text.literal Text.doubleQuote function.toList ++ ')' :: ';' :: ' ' :: rest) := by
      simp [trapChars]
    rw [text, name.lexemes (breaks_cons (by decide) _), lexemes_opening,
      lexemes_literal (Or.inl rfl), lexemes_closing, lexemes_semicolon, lexemes_blank]
    simp [trapLexemes, Function.comp_def]

theorem lexemes_blockOpening (rest : List Char) :
    lexemes ('\x7b' :: rest) = (lexemes rest).map (.blockOpening :: ·) :=
  lexemes_single (c := '\x7b') (by decide) rfl

theorem lexemes_blockClosing : lexemes ['\x7d'] = some [.blockClosing] := by
  rw [lexemes_single (c := '\x7d') (x := .blockClosing) (by decide) rfl, lexemes_nil]
  rfl

/-- The text of a body whose names are C names has one reading: its block. -/
theorem read?_text (b : Body) (named : Named b.mentions) : Block.read? b.text = some b.block := by
  rw [Block.read?, Body.text, String.toList_ofList]
  cases b with
  | value result =>
    have text : (Body.value result).chars = '\x7b' :: ' ' :: (['r', 'e', 't', 'u', 'r', 'n'] ++ ' ' ::
        (result.chars ++ ' ' :: ';' :: ' ' :: ['\x7d'])) := by
      rw [Body.chars_value]
      simp
    have ends (more : List Char) : Breaks (' ' :: more) := breaks_cons (by decide) more
    have read : statement? (.returnWord :: (result.lexemes ++ .semicolon :: [.blockClosing])) =
        some (.ret result.term, [.blockClosing]) := by
      rw [statement?, endedTerm?_lexemes]
      rfl
    rw [text, lexemes_blockOpening, lexemes_blank, lexemes_word (by decide) (ends _), lexemes_blank,
      lexemes_chars result named (ends _), lexemes_blank, lexemes_semicolon, lexemes_blank,
      lexemes_blockClosing]
    change statements? (.returnWord :: (result.lexemes ++ .semicolon :: [.blockClosing])) = _
    rw [statements?_cons read (by simp), statements?_blockClosing]
    rfl
  | cascade clauses trap =>
    have text : (Body.cascade clauses trap).chars = '\x7b' :: ' ' :: (clauses.flatMap clauseChars ++
        (trapChars trap ++ ['\x7d'])) := by
      rw [Body.chars_cascade]
      simp
    rw [text, lexemes_blockOpening, lexemes_blank, lexemes_clauses clauses named, lexemes_trapChars,
      lexemes_blockClosing]
    change statements? (clauses.flatMap clauseLexemes ++ (trapLexemes trap ++ [.blockClosing])) = _
    rw [statements?_clauses, statements?_trap]
    rfl

end LittleLisp.C
