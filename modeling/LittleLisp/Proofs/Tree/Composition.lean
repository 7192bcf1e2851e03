import LittleLisp.Proofs.Source.Place
import LittleLisp.Proofs.Token.Step
import LittleLisp.Proofs.Tree.Relocation

/-!
# Sources one below the other

Nothing that the lexer or the reader knows survives a newline at the top level. So when a source is
read, what stands below it is read as if it stood alone, only further down: the same trees, or the
same fault, some lines below.

Both halves of reading are shown to be compositional. The lexer takes no step across the newline
(`scan_append_newline`), and the reader that has come to an end starts afresh (`run_append`).
-/

namespace LittleLisp

/-! ## Further down -/

namespace Position

/-- The place some lines below. -/
def below (k : Int) (p : Position) : Position :=
  ⟨p.line + k, p.col⟩

theorem next_below (k : Int) (p : Position) (g : Glyph) :
    (p.below k).next g = (p.next g).below k := by
  unfold next
  split
  · exact congrArg (Position.mk · 1) (Int.add_right_comm p.line k 1)
  · rfl

theorem advance_below (k : Int) (p : Position) (s : Source) :
    (p.below k).advance s = (p.advance s).below k := by
  induction s generalizing p with
  | nil => rfl
  | cons g s ih =>
    rw [advance, List.foldl_cons, next_below]
    exact ih (p.next g)

end Position

/-- The location of what stands some lines below, from start to stop. -/
def Location.below (k : Int) (l : Location) : Location :=
  { l with line := l.line + k, stop := l.stop.map (Position.below k) }

theorem keepsExtents_below (k : Int) : Reader.KeepsExtents (Location.below k) := by
  intro start closing
  have same_line : closing.line + k = start.line + k ↔ closing.line = start.line := by omega
  simp only [Reader.formLocation, Location.below, same_line]
  rfl

/-! ## Tokens -/

namespace Token

variable {file : String} {p : Position} {source : Source} {tokens : List Token}

/-- The faults of the lexer show no tree. -/
theorem relocate_of_step {first : Glyph} {rest : Source} {cause : Fault} {len : Nat}
    (h : step first rest = .fault cause len) (f : Location → Location) :
    cause.relocate f = cause := by
  simp only [step] at h
  split at h
  · cases h
  split at h
  · cases h
  split at h
  · cases h
  split at h
  · cases h
  split at h
  · unfold stringStep at h
    split at h <;> cases h
    rfl
  split at h
  · unfold charStep closeChar at h
    repeat' split at h
    all_goals cases h
    all_goals rfl
  split at h
  · simp only [numberStep] at h
    repeat' split at h
    all_goals cases h
    all_goals rfl
  split at h
  · cases h
  · cases h
    rfl

/-- A source that starts some lines below has its tokens, or its fault, some lines below. -/
theorem scan_below (k : Int) (p : Position) (source : Source) :
    scan file (p.below k) source =
      relocated (Location.below k) (List.map (relocate (Location.below k))) (scan file p source) := by
  induction p, source using scan.induct file with
  | case1 p => rw [scan, scan]; rfl
  | case2 p first rest more skips ih =>
    rw [scan, scan, skips]
    simp only [Position.advance_below]
    exact ih
  | case3 p first rest value more len takes later read ih =>
    rw [scan, scan, takes]
    simp only [Position.advance_below, ih, read]
    rfl
  | case4 p first rest value more len takes problem fails ih =>
    rw [scan, scan, takes]
    simp only [Position.advance_below, ih, fails]
    rfl
  | case5 p first rest cause len faults =>
    rw [scan, scan, faults]
    simp only [relocated, Problem.relocate, Fault.at, relocate_of_step faults]
    rfl

/-- When a source is read, what stands below it is read from the start of its line. -/
theorem scan_append_newline (h : scan file p source = .ok tokens) (more : Source) :
    scan file p (source ++ Source.newline :: more) =
      (scan file ((p.advance source).next Source.newline) more).map (tokens ++ ·) := by
  induction p, source using scan.induct file generalizing tokens with
  | case1 p =>
    rw [scan] at h
    obtain rfl := Except.ok.inj h
    have skips : step Source.newline more = .skip 0 := step_of_blank (by decide) more
    have below : scan file p (Source.newline :: more) = scan file (p.next Source.newline) more := by
      rw [scan, skips]
      rfl
    rw [List.nil_append, below, Position.advance_nil]
    cases scan file (p.next Source.newline) more <;> rfl
  | case2 p first rest taken skips ih =>
    rw [scan, skips] at h
    have bound := le_of_step_eq_skip skips
    have sound : ∀ cause len, step first rest ≠ .fault cause len := by simp [skips]
    rw [List.cons_append, scan, step_append_newline sound, skips]
    simp only [List.take_append_of_le_length bound, List.drop_append_of_le_length bound]
    rw [ih h, ← Position.advance_append, List.cons_append, List.take_append_drop]
  | case3 p first rest value taken len takes later read ih =>
    simp only [scan, takes, read] at h
    obtain rfl := Except.ok.inj h
    have bound := (step_of_token takes).1
    have sound : ∀ cause len, step first rest ≠ .fault cause len := by simp [takes]
    rw [List.cons_append, scan, step_append_newline sound, takes]
    simp only [List.take_append_of_le_length bound, List.drop_append_of_le_length bound]
    rw [ih read, ← Position.advance_append, List.cons_append, List.take_append_drop]
    cases scan file ((p.advance (first :: rest)).next Source.newline) more <;> rfl
  | case4 p first rest value taken len takes problem fails ih =>
    simp only [scan, takes, fails] at h
    cases h
  | case5 p first rest cause len faults =>
    rw [scan, faults] at h
    cases h

/-- The tokens of two sources, one below the other. -/
theorem lex_append_newline (h : lex file source = .ok tokens) (more : Source) :
    lex file (source ++ Source.newline :: more) =
      (relocated (Location.below (1 + source.count Source.newline))
        (List.map (relocate (Location.below (1 + source.count Source.newline))))
        (lex file more)).map (tokens ++ ·) := by
  have place : (Position.start.advance source).next Source.newline =
      Position.start.below (1 + source.count Source.newline) := by
    rw [Position.advance_start, Position.next, if_pos rfl, Position.below]
    congr 1
    simp only [Position.start]
    omega
  rw [lex, scan_append_newline h, place, scan_below]
  rfl

end Token

/-! ## Trees -/

namespace Reader.State

/-- A state of the reader that comes after other finished trees. -/
def after (s : State) (done : List Node) : State :=
  ⟨s.frames, s.done ++ done⟩

theorem add_after (s : State) (done : List Node) (n : Node) :
    (s.after done).add n = (s.add n).after done := by
  obtain ⟨frames, own⟩ := s
  cases frames <;> rfl

theorem step_after (s : State) (done : List Node) (t : Token) :
    (s.after done).step t = (s.step t).map (after · done) := by
  obtain ⟨v, l⟩ := t
  cases v with
  | opening => rfl
  | closing =>
    obtain ⟨frames, own⟩ := s
    cases frames with
    | nil => rfl
    | cons frame outer =>
      simp only [step, close, after]
      cases Node.ofMembers frame.members.reverse (formLocation frame.start l) with
      | error p => rfl
      | ok n => exact congrArg Except.ok (add_after ⟨outer, own⟩ done n)
  | int value => exact congrArg Except.ok (add_after s done (.int value l))
  | char value => exact congrArg Except.ok (add_after s done (.char value l))
  | str value => exact congrArg Except.ok (add_after s done (.str value l))
  | ident name => exact congrArg Except.ok (add_after s done (.ident name l))

/-- What is finished already does not matter for what is read. -/
theorem run_after (s : State) (done : List Node) (tokens : List Token) :
    (s.after done).run tokens = (s.run tokens).map (done.reverse ++ ·) := by
  induction tokens generalizing s with
  | nil =>
    obtain ⟨frames, own⟩ := s
    cases frames with
    | nil => exact congrArg Except.ok List.reverse_append
    | cons frame outer => rfl
  | cons t rest ih =>
    rw [run, run, step_after]
    cases s.step t with
    | error p => rfl
    | ok s' => exact ih s'

/-- A reader that has come to an end starts afresh. -/
theorem run_append {s : State} {first : List Token} {forms : List Node}
    (h : s.run first = .ok forms) (more : List Token) :
    s.run (first ++ more) = (empty.run more).map (forms ++ ·) := by
  induction first generalizing s with
  | nil =>
    obtain ⟨frames, done⟩ := s
    cases frames with
    | nil =>
      obtain rfl := Except.ok.inj h
      exact run_after empty done more
    | cons frame outer => cases h
  | cons t rest ih =>
    rw [List.cons_append, run]
    rw [run] at h
    cases taken : s.step t with
    | error p =>
      rw [taken] at h
      cases h
    | ok s' =>
      rw [taken] at h
      exact ih h

end Reader.State

namespace Node

variable {file : String} {forms : List Node}

/-- The trees of two sources, one below the other. -/
theorem parse_append {source : Source} (h : parse file source = .ok forms) (more : Source) :
    parse file (source ++ Source.newline :: more) =
      (relocated (Location.below (1 + source.count Source.newline))
        (List.map (relocate (Location.below (1 + source.count Source.newline))))
        (parse file more)).map (forms ++ ·) := by
  generalize lower : Location.below (1 + source.count Source.newline) = f
  have keeps : Reader.KeepsExtents f := lower ▸ keepsExtents_below _
  unfold parse at h ⊢
  split at h
  · next tokens read =>
    rw [Token.lex_append_newline read, lower]
    cases Token.lex file more with
    | error p => rfl
    | ok later =>
      have moved := Reader.State.run_relocate keeps .empty later
      have both := Reader.State.run_append h (later.map (Token.relocate f))
      rw [show Reader.State.empty = Reader.State.empty.relocate f from rfl, moved] at both
      exact both
  · cases h

/-- **Reading is compositional.** When a text is read, what stands below it is read just when it is
read alone. Its trees come after those of the text, and its fault has the same message; both stand
as many lines further down as there are above them. -/
theorem parse_append_newline {first : List UInt8}
    (h : parse file (Source.ofBytes first) = .ok forms) (second : List UInt8) :
    ((∃ all, parse file (Source.ofBytes (first ++ Source.newlineByte :: second)) = .ok all) ↔
      ∃ later, parse file (Source.ofBytes second) = .ok later) ∧
    (∀ later, parse file (Source.ofBytes second) = .ok later →
      parse file (Source.ofBytes (first ++ Source.newlineByte :: second)) = .ok
        (forms ++ later.map (relocate (Location.below (1 + first.count Source.newlineByte))))) ∧
    (∀ p, parse file (Source.ofBytes second) = .error p →
      ∃ q, parse file (Source.ofBytes (first ++ Source.newlineByte :: second)) = .error q ∧
        q.fault.kind = p.fault.kind ∧ q.message = p.message ∧
        q.loc = p.loc.map (Location.below (1 + first.count Source.newlineByte))) := by
  rw [Source.ofBytes_append_newline, parse_append h, Source.count_newline_ofBytes]
  cases parse file (Source.ofBytes second) with
  | ok later =>
    refine ⟨⟨fun _ => ⟨later, rfl⟩, fun _ => ⟨_, rfl⟩⟩, ?_, ?_⟩
    · intro trees read
      obtain rfl := Except.ok.inj read
      rfl
    · intro p failed
      cases failed
  | error p =>
    refine ⟨⟨?_, ?_⟩, ?_, ?_⟩
    · rintro ⟨all, read⟩
      cases read
    · rintro ⟨later, read⟩
      cases read
    · intro later read
      cases read
    · intro p' failed
      obtain rfl := Except.error.inj failed
      exact ⟨_, rfl, Fault.kind_relocate _, Fault.message_relocate _, rfl⟩

/-- A minus sign at the end of a line is not the sign of a number on the next one. -/
theorem parse_append_newline_minus :
    parse "a" (Source.ofBytes ([45] ++ 10 :: [49])) =
      .ok [.ident "-" ⟨"a", 1, 1, 1, none⟩, .int 1 ⟨"a", 2, 1, 1, none⟩] ∧
    ∃ q, parse "a" (Source.ofBytes ([45] ++ 10 :: [41])) = .error q ∧
      q.message = "syntax error: unexpected ')'" ∧ q.loc = some ⟨"a", 2, 1, 1, none⟩ := by
  have minus : parse "a" (Source.ofBytes [45]) = .ok [.ident "-" ⟨"a", 1, 1, 1, none⟩] := by
    with_unfolding_all rfl
  have one : parse "a" (Source.ofBytes [49]) = .ok [.int 1 ⟨"a", 1, 1, 1, none⟩] := by
    with_unfolding_all rfl
  have stray : parse "a" (Source.ofBytes [41]) =
      .error (Fault.strayClose.at ⟨"a", 1, 1, 1, none⟩) := by
    with_unfolding_all rfl
  obtain ⟨-, read, -⟩ := parse_append_newline minus [49]
  obtain ⟨-, -, fails⟩ := parse_append_newline minus [41]
  obtain ⟨q, failed, -, message, place⟩ := fails _ stray
  exact ⟨read _ one, q, failed, message, place⟩

end Node

end LittleLisp
