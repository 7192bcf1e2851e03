import LittleLisp.Proofs.Text.Numeral
import LittleLisp.Token.Lexer

/-!
# What a step of the lexer looks at

A step that takes a token looks at the glyphs that it takes and at the one after them, if there is
one, and a newline there ends a token as well as the end of the source does (`step_of_token`). So a
token is read in the same way by itself, and a source that is read without a fault is read in the
same way before a newline (`step_append_newline`).
-/

namespace LittleLisp.Token

/-- Behind its first `taken` glyphs, a source may go on with `after` as well: that goes on in the
same way, starts a new line, or is nothing. -/
def GoesOn (rest : Source) (taken : Nat) (after : Source) : Prop :=
  ∀ g ∈ after.head?, g = Source.newline ∨ (rest.drop taken).head? = some g

theorem goesOn_nil (rest : Source) (taken : Nat) : GoesOn rest taken [] := by
  intro g hg
  cases hg

theorem goesOn_append_newline (rest : Source) (taken : Nat) (more : Source) :
    GoesOn rest taken (rest.drop taken ++ Source.newline :: more) := by
  intro g hg
  cases left : rest.drop taken with
  | nil =>
    rw [left] at hg
    exact .inl (Option.some.inj hg).symm
  | cons x xs =>
    rw [left] at hg
    exact .inr hg

theorem eq_char_of_rune {g : Glyph} {c : Char} (other : c ≠ Char.ofNat 0xfffd)
    (h : g.rune = c) : g = .char c := by
  cases g with
  | char d => exact congrArg Glyph.char h
  | stray b => exact absurd h.symm other

/-! ## Runs of glyphs -/

section Runs

variable {p : Glyph → Bool} {rest : Source}

theorem take_length_takeWhile (p : Glyph → Bool) (rest : Source) :
    rest.take (rest.takeWhile p).length = rest.takeWhile p := by
  have whole := List.takeWhile_append_dropWhile (p := p) (l := rest)
  conv => lhs; rw [← whole]
  exact List.take_left' (by rw [whole])

theorem drop_length_takeWhile (p : Glyph → Bool) (rest : Source) :
    rest.drop (rest.takeWhile p).length = rest.dropWhile p := by
  conv => lhs; rw [← List.takeWhile_append_dropWhile (p := p) (l := rest)]
  exact List.drop_left' (by rw [List.takeWhile_append_dropWhile])

theorem takeWhile_append_drop (p : Glyph → Bool) (rest more : Source) :
    rest.takeWhile p ++ (rest.drop (rest.takeWhile p).length ++ more) = rest ++ more := by
  conv => lhs; arg 1; rw [← take_length_takeWhile]
  rw [← List.append_assoc, List.take_append_drop]

theorem length_takeWhile_le (p : Glyph → Bool) (rest : Source) :
    (rest.takeWhile p).length ≤ rest.length := by
  rw [← take_length_takeWhile p rest, List.length_take]
  exact Nat.min_le_right _ _

/-- A run that ends at newlines ends in the same place before anything that goes on in the same
way. -/
theorem takeWhile_goesOn (ends : p Source.newline = false) {after : Source}
    (goes : GoesOn rest (rest.takeWhile p).length after) :
    (rest.takeWhile p ++ after).takeWhile p = rest.takeWhile p := by
  refine Text.takeWhile_run (List.all_eq_true.1 List.all_takeWhile) ?_
  intro g hg
  rcases goes g hg with rfl | next
  · exact ends
  · rw [drop_length_takeWhile] at next
    have stop := List.head?_dropWhile_not p rest
    rw [next] at stop
    exact stop

end Runs

/-! ## Strings -/

/-- The contents of a string are read from the glyphs up to its closing quote. -/
theorem stringBody?_take {s : Source} {cs : List Char} {n : Nat}
    (h : stringBody? s = some (cs, n)) :
    n ≤ s.length ∧ ∀ after, stringBody? (s.take n ++ after) = some (cs, n) := by
  induction s using stringBody?.induct generalizing cs n with
  | case1 =>
    rw [stringBody?] at h
    cases h
  | case2 g rest quote =>
    rw [stringBody?.eq_def] at h
    simp only [if_pos quote] at h
    obtain ⟨rfl, rfl⟩ := Prod.mk.inj (Option.some.inj h)
    refine ⟨by simp, fun after => ?_⟩
    rw [List.take_succ_cons, List.take_zero, List.singleton_append, stringBody?.eq_def]
    simp only [if_pos quote]
  | case3 g not_quote backslash =>
    rw [stringBody?.eq_def] at h
    simp only [if_neg not_quote, if_pos backslash] at h
    cases h
  | case4 g not_quote backslash escaped rest ih =>
    rw [stringBody?.eq_def] at h
    simp only [if_neg not_quote, if_pos backslash] at h
    obtain ⟨⟨cs', n'⟩, read, same⟩ := Option.map_eq_some_iff.1 h
    obtain ⟨rfl, rfl⟩ := Prod.mk.inj same
    obtain ⟨bound, again⟩ := ih read
    refine ⟨by simpa using bound, fun after => ?_⟩
    rw [List.take_succ_cons, List.take_succ_cons, List.cons_append, List.cons_append,
      stringBody?.eq_def]
    simp only [if_neg not_quote, if_pos backslash, again after, Option.map_some]
  | case5 g rest not_quote plain ih =>
    rw [stringBody?.eq_def] at h
    simp only [if_neg not_quote, if_neg plain] at h
    obtain ⟨⟨cs', n'⟩, read, same⟩ := Option.map_eq_some_iff.1 h
    obtain ⟨rfl, rfl⟩ := Prod.mk.inj same
    obtain ⟨bound, again⟩ := ih read
    refine ⟨by simpa using bound, fun after => ?_⟩
    rw [List.take_succ_cons, List.cons_append, stringBody?.eq_def]
    simp only [if_neg not_quote, if_neg plain, again after, Option.map_some]

section Tokens

variable {first : Glyph} {rest : Source} {v : Value} {more len : Nat}

theorem stringStep_take (h : stringStep first rest = .token v more len) :
    more ≤ rest.length ∧
      ∀ after, stringStep first (rest.take more ++ after) = .token v more len := by
  unfold stringStep at h
  split at h
  · cases h
  · next cs n read =>
    cases h
    obtain ⟨bound, again⟩ := stringBody?_take read
    refine ⟨bound, fun after => ?_⟩
    have same : (rest.take more ++ after).take more = rest.take more :=
      List.take_left' (List.length_take_of_le bound)
    rw [stringStep, again after]
    simp only [same]

/-- The length of a string is in bytes. -/
theorem stringStep_eq_token (h : stringStep first rest = .token v more len) :
    (∃ s, v = .str s) ∧ len = Source.size (first :: rest.take more) := by
  unfold stringStep at h
  split at h
  · cases h
  · cases h
    exact ⟨⟨_, rfl⟩, rfl⟩

/-! ## Character constants -/

/-- The value and the closing quote of a character constant. -/
theorem closeChar_eq_token {value : Char} {taken : Nat}
    (h : closeChar value taken rest = .token v more len) :
    more = taken ∧ ∃ closing after, rest = closing :: after ∧
      ∀ after, closeChar value taken (closing :: after) = .token v more len := by
  unfold closeChar at h
  split at h
  · next closing after =>
    split at h
    · cases h
    · next quote =>
      split at h
      · cases h
      · next narrow =>
        cases h
        refine ⟨rfl, closing, after, rfl, fun after => ?_⟩
        simp only [closeChar, if_neg quote, if_neg narrow]
  · cases h

theorem charStep_eq_token (h : charStep rest = .token v more len) :
    (∃ c, v = .char c) ∧ len = more + 1 := by
  unfold charStep closeChar at h
  repeat' split at h
  all_goals cases h
  all_goals exact ⟨⟨_, rfl⟩, rfl⟩

theorem charStep_take (h : charStep rest = .token v more len) :
    more ≤ rest.length ∧ ∀ after, charStep (rest.take more ++ after) = .token v more len := by
  unfold charStep at h
  split at h
  · cases h
  · next g rest =>
    split at h
    · cases h
    · next plain =>
      split at h
      · next backslash =>
        split at h
        · cases h
        · next escaped rest =>
          obtain ⟨rfl, closing, after, rfl, again⟩ := closeChar_eq_token h
          refine ⟨by simp, fun after => ?_⟩
          simp only [List.take_succ_cons, List.take_zero, List.cons_append, List.nil_append,
            charStep, if_neg plain, if_pos backslash, again after]
      · next unescaped =>
        obtain ⟨rfl, closing, after, rfl, again⟩ := closeChar_eq_token h
        refine ⟨by simp, fun after => ?_⟩
        simp only [List.take_succ_cons, List.take_zero, List.cons_append, List.nil_append,
          charStep, if_neg plain, if_neg unescaped, again after]

/-! ## Numbers and identifiers -/

theorem not_isDelimiter_newline : (!isDelimiter Source.newline.rune) = false := by
  decide

theorem not_isIdentPart_newline : isIdentPart Source.newline.rune = false := by
  decide +kernel

/-- A number is all that stands before the next delimiter, and its length is in bytes. -/
theorem numberStep_eq_token (h : numberStep first rest = .token v more len) :
    more = (rest.takeWhile fun g => !isDelimiter g.rune).length ∧
      (∃ n, v = .int n ∧ numeral? (first :: rest.take more) = some n) ∧
      len = Source.size (first :: rest.take more) := by
  simp only [numberStep] at h
  split at h
  · cases h
  · next n read =>
    split at h
    · cases h
    · split at h <;> cases h
      rw [take_length_takeWhile]
      exact ⟨rfl, ⟨n, rfl, read⟩, rfl⟩

theorem numberStep_take (h : numberStep first rest = .token v more len) :
    more ≤ rest.length ∧ ∀ after, GoesOn rest more after →
      numberStep first (rest.take more ++ after) = .token v more len := by
  have counted := (numberStep_eq_token h).1
  subst counted
  refine ⟨length_takeWhile_le _ rest, fun after goes => ?_⟩
  rw [take_length_takeWhile, ← h]
  simp only [numberStep, takeWhile_goesOn not_isDelimiter_newline goes]

theorem identStep_take (h : identStep first rest = .token v more len) :
    more ≤ rest.length ∧ ∀ after, GoesOn rest more after →
      identStep first (rest.take more ++ after) = .token v more len := by
  have counted : more = (rest.takeWhile fun g => isIdentPart g.rune).length := by
    simp only [identStep] at h
    cases h
    rfl
  subst counted
  refine ⟨length_takeWhile_le _ rest, fun after goes => ?_⟩
  rw [take_length_takeWhile, ← h]
  simp only [identStep, takeWhile_goesOn not_isIdentPart_newline goes]

theorem startsNumber_iff : startsNumber first rest = true ↔
    Text.isDigit first.rune = true ∨
      first.rune = '-' ∧ ∃ g, rest.head? = some g ∧ Text.isDigit g.rune = true := by
  cases rest with
  | nil => simp [startsNumber]
  | cons g rest => simp [startsNumber]

/-- What goes on in the same way starts in the same way, or is the start of a line. -/
theorem head?_of_goesOn {after : Source} (goes : GoesOn rest more after) {g : Glyph}
    (h : (rest.take more ++ after).head? = some g) : g = Source.newline ∨ rest.head? = some g := by
  cases rest with
  | nil =>
    rw [List.take_nil, List.nil_append] at h
    simpa using goes g h
  | cons x rest =>
    cases more with
    | zero => exact goes g h
    | succ more => exact .inr h

/-- What goes on in the same way starts a number only if it did. -/
theorem startsNumber_of_goesOn {after : Source} (goes : GoesOn rest more after)
    (h : startsNumber first (rest.take more ++ after) = true) : startsNumber first rest = true := by
  rw [startsNumber_iff] at h ⊢
  refine h.imp_right fun ⟨minus, g, head, digit⟩ => ⟨minus, g, ?_, digit⟩
  rcases head?_of_goesOn goes head with rfl | same
  · exact absurd digit (by decide)
  · exact same

/-- A number that starts with a minus sign goes on after it. -/
theorem numberStep_minus (minus : first.rune = '-')
    (h : numberStep first rest = .token v more len) : more ≠ 0 := by
  rintro rfl
  obtain rfl := eq_char_of_rune (by decide) minus
  have alone := (numberStep_take h).2 [] (goesOn_nil rest 0)
  cases alone

theorem startsNumber_take (number : startsNumber first rest = true)
    (h : numberStep first rest = .token v more len) (after : Source) :
    startsNumber first (rest.take more ++ after) = true := by
  rw [startsNumber_iff] at number ⊢
  refine number.imp_right fun ⟨minus, g, head, digit⟩ => ⟨minus, g, ?_, digit⟩
  rw [List.head?_append, List.head?_take, if_neg (numberStep_minus minus h), head]
  rfl

/-! ## Steps -/

/-- The steps that take a token. -/
theorem step_token_cases (h : step first rest = .token v more len) :
    (first = .char '(' ∧ v = .opening ∧ more = 0 ∧ len = 1) ∨
    (first = .char ')' ∧ v = .closing ∧ more = 0 ∧ len = 1) ∨
    stringStep first rest = .token v more len ∨
    charStep rest = .token v more len ∨
    numberStep first rest = .token v more len ∨
    (isIdentStart first.rune = true ∧ identStep first rest = .token v more len) := by
  simp only [step] at h
  split at h
  · cases h
  split at h
  · cases h
  split at h
  · next opening =>
    cases h
    exact .inl ⟨eq_char_of_rune (by decide) opening, rfl, rfl, rfl⟩
  split at h
  · next closing =>
    cases h
    exact .inr (.inl ⟨eq_char_of_rune (by decide) closing, rfl, rfl, rfl⟩)
  split at h
  · exact .inr (.inr (.inl h))
  split at h
  · exact .inr (.inr (.inr (.inl h)))
  split at h
  · exact .inr (.inr (.inr (.inr (.inl h))))
  split at h
  · next start => exact .inr (.inr (.inr (.inr (.inr ⟨start, h⟩))))
  · cases h

/-- A step that takes a token takes glyphs that are there, and takes the same before anything that
goes on in the same way. -/
theorem step_of_token (h : step first rest = .token v more len) :
    more ≤ rest.length ∧ ∀ after, GoesOn rest more after →
      step first (rest.take more ++ after) = .token v more len := by
  simp only [step] at h ⊢
  split at h
  · cases h
  next blank =>
  split at h
  · cases h
  next comment =>
  simp only [if_neg blank, if_neg comment]
  split at h
  · next opening =>
    cases h
    exact ⟨Nat.zero_le _, fun after _ => if_pos opening⟩
  next opening =>
  simp only [if_neg opening]
  split at h
  · next closing =>
    cases h
    exact ⟨Nat.zero_le _, fun after _ => if_pos closing⟩
  next closing =>
  simp only [if_neg closing]
  split at h
  · next string =>
    simp only [if_pos string]
    exact ⟨(stringStep_take h).1, fun after _ => (stringStep_take h).2 after⟩
  next string =>
  simp only [if_neg string]
  split at h
  · next character =>
    simp only [if_pos character]
    exact ⟨(charStep_take h).1, fun after _ => (charStep_take h).2 after⟩
  next character =>
  simp only [if_neg character]
  split at h
  · next number =>
    refine ⟨(numberStep_take h).1, fun after goes => ?_⟩
    rw [if_pos (startsNumber_take number h after)]
    exact (numberStep_take h).2 after goes
  next number =>
  split at h
  · next start =>
    refine ⟨(identStep_take h).1, fun after goes => ?_⟩
    rw [if_neg fun other => number (startsNumber_of_goesOn goes other), if_pos start]
    exact (identStep_take h).2 after goes
  · cases h

/-- The steps that skip something: a blank, and a comment up to the end of its line. -/
theorem step_eq_skip (h : step first rest = .skip more) :
    (Text.isBlank first.rune = true ∧ more = 0) ∨
    (Text.isBlank first.rune = false ∧ first.rune = ';' ∧
      more = (rest.takeWhile fun g => g.rune ≠ '\n').length) := by
  simp only [step] at h
  split at h
  · next blank =>
    cases h
    exact .inl ⟨blank, rfl⟩
  next blank =>
  split at h
  · next comment =>
    cases h
    exact .inr ⟨by simpa using blank, comment, rfl⟩
  -- Nothing else is skipped.
  split at h
  · cases h
  split at h
  · cases h
  split at h
  · unfold stringStep at h
    split at h <;> cases h
  split at h
  · unfold charStep closeChar at h
    repeat' split at h
    all_goals cases h
  split at h
  · simp only [numberStep] at h
    repeat' split at h
    all_goals cases h
  split at h <;> cases h

theorem step_of_blank (blank : Text.isBlank first.rune = true) (rest : Source) :
    step first rest = .skip 0 := by
  simp only [step, if_pos blank]

theorem step_of_comment (blank : Text.isBlank first.rune = false) (comment : first.rune = ';')
    (rest : Source) :
    step first rest = .skip (rest.takeWhile fun g => g.rune ≠ '\n').length := by
  simp only [step, blank, if_pos comment, Bool.false_eq_true, if_false]

/-- A step that finds no fault is the same before a newline. -/
theorem step_append_newline (h : ∀ cause len, step first rest ≠ .fault cause len) (t : Source) :
    step first (rest ++ Source.newline :: t) = step first rest := by
  cases taken : step first rest with
  | fault cause len => exact absurd taken (h cause len)
  | token v more len =>
    have again := (step_of_token taken).2 _ (goesOn_append_newline rest more t)
    rwa [← List.append_assoc, List.take_append_drop] at again
  | skip more =>
    rcases step_eq_skip taken with ⟨blank, rfl⟩ | ⟨blank, comment, rfl⟩
    · exact step_of_blank blank _
    · have same := takeWhile_goesOn (p := fun g => decide (g.rune ≠ '\n')) (by decide)
        (goesOn_append_newline rest _ t)
      rw [takeWhile_append_drop] at same
      rw [step_of_comment blank comment, same]

/-- A step that finds no fault takes glyphs that are there. -/
theorem le_of_step_eq_skip (h : step first rest = .skip more) : more ≤ rest.length := by
  rcases step_eq_skip h with ⟨-, rfl⟩ | ⟨-, -, rfl⟩
  · exact Nat.zero_le _
  · exact length_takeWhile_le _ rest

/-- A step that skips nothing does not start at the end of a line. -/
theorem ne_newline_of_step (rest : Source) (h : ∀ more, step first rest ≠ .skip more) :
    first ≠ Source.newline := by
  rintro rfl
  exact h 0 (step_of_blank (by decide) rest)

end Tokens

/-- What a step takes, and what it leaves to the next one. -/
theorem append_take_drop (before rest : Source) (first : Glyph) (more : Nat) :
    before ++ first :: rest.take more ++ rest.drop more = before ++ first :: rest := by
  rw [List.append_assoc, List.cons_append, List.take_append_drop]

end LittleLisp.Token
