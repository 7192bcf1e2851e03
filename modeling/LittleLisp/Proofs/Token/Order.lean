import LittleLisp.Proofs.Source.Place
import LittleLisp.Proofs.Token.Step
import Mathlib.Order.Defs.PartialOrder

/-!
# The order of tokens

Places are ordered as they are read, line by line. The tokens of a source come in this order, and an
identifier, unlike a string, has come to its end where its location says. Two identifiers never touch:
the glyph after an identifier is no part of one (`pairwise_before_of_scan`).
-/

namespace LittleLisp

namespace Position

/-- Reading order: line by line, and from left to right on each line. -/
instance : PartialOrder Position where
  le p q := p.line < q.line ∨ p.line = q.line ∧ p.col ≤ q.col
  lt p q := p.line < q.line ∨ p.line = q.line ∧ p.col < q.col
  le_refl p := .inr ⟨rfl, Int.le_refl p.col⟩
  le_trans p q r := by omega
  lt_iff_le_not_ge p q := by omega
  le_antisymm p q := by
    rintro (below | ⟨line, left⟩) (above | ⟨same, right⟩)
    · exact absurd above (Int.lt_asymm below)
    · exact absurd same (Int.ne_of_gt below)
    · exact absurd line (Int.ne_of_gt above)
    · exact congrArg₂ mk line (Int.le_antisymm left right)

variable {p q : Position}

theorem le_iff : p ≤ q ↔ p.line < q.line ∨ p.line = q.line ∧ p.col ≤ q.col := Iff.rfl

theorem lt_iff : p < q ↔ p.line < q.line ∨ p.line = q.line ∧ p.col < q.col := Iff.rfl

theorem lt_next (p : Position) (g : Glyph) : p < p.next g := by
  rw [lt_iff, next]
  split
  · exact .inl (Int.lt_succ p.line)
  · exact .inr ⟨rfl, Int.lt_succ p.col⟩

theorem le_advance (p : Position) (s : Source) : p ≤ p.advance s := by
  induction s generalizing p with
  | nil => exact le_refl p
  | cons g s ih => exact (lt_next p g).le.trans (ih (p.next g))

theorem advance_le_of_prefix (p : Position) {s t : Source} (h : s <+: t) :
    p.advance s ≤ p.advance t := by
  obtain ⟨more, rfl⟩ := h
  rw [advance_append]
  exact le_advance _ more

theorem lt_advance (p : Position) (g : Glyph) (s : Source) : p < p.advance (g :: s) :=
  (lt_next p g).trans_le (le_advance (p.next g) s)

/-- Pieces that a source starts with are told apart by the places behind them. -/
theorem eq_of_advance_eq {p : Position} {s t source : Source} (hs : s <+: source)
    (ht : t <+: source) (same : p.advance s = p.advance t) : s = t := by
  wlog short : s <+: t generalizing s t
  · exact (this ht hs same.symm
      ((List.prefix_or_prefix_of_prefix ht hs).resolve_right short)).symm
  obtain ⟨more, rfl⟩ := short
  cases more with
  | nil => exact (List.append_nil s).symm
  | cons g more =>
    rw [advance_append] at same
    exact absurd same (lt_advance (p.advance s) g more).ne

/-- Behind a piece of source, as many lines down as there are newlines in it. -/
theorem line_advance (p : Position) (s : Source) :
    (p.advance s).line = p.line + s.count Source.newline := by
  induction s generalizing p with
  | nil => simp
  | cons g s ih =>
    rw [advance, List.foldl_cons, ← advance, ih, next]
    split
    · next ends =>
      rw [ends, List.count_cons_self]
      push_cast
      omega
    · next other => rw [List.count_cons_of_ne other]

/-- Behind a piece of a line. -/
theorem advance_of_not_mem (p : Position) {s : Source} (h : Source.newline ∉ s) :
    p.advance s = ⟨p.line, p.col + s.length⟩ := by
  induction s generalizing p with
  | nil => simp
  | cons g s ih =>
    obtain ⟨plain, later⟩ := List.ne_and_not_mem_of_not_mem_cons h
    rw [advance, List.foldl_cons, ← advance, ih _ later, next, if_neg (Ne.symm plain),
      List.length_cons]
    simp only [mk.injEq, true_and]
    push_cast
    omega

end Position

namespace Location

/-- Where a location starts. -/
def start (l : Location) : Position :=
  ⟨l.line, l.col⟩

/-- Where a location stops; it is at least one character long. -/
def finish (l : Location) : Position :=
  l.stop.getD ⟨l.line, l.col + max 1 l.len⟩

end Location

namespace Token

/-- A token is an identifier. -/
def IsIdent (t : Token) : Prop :=
  ∃ name, t.value = .ident name

/-- A token stands before another one: identifiers have come to their end, and do not touch. -/
structure Before (a b : Token) : Prop where
  start : a.loc.start < b.loc.start
  finish : a.IsIdent → a.loc.finish ≤ b.loc.start
  apart : a.IsIdent → b.IsIdent → a.loc.finish < b.loc.start

variable {first : Glyph} {rest : Source} {more len : Nat}

/-- An identifier is as long as it can be. -/
theorem step_eq_ident {name : String} (h : step first rest = .token (.ident name) more len) :
    isIdentPart first.rune = true ∧ more = (rest.takeWhile fun g => isIdentPart g.rune).length ∧
      len = more + 1 := by
  obtain ⟨-, other, -⟩ | ⟨-, other, -⟩ | string | character | number | ⟨start, ident⟩ :=
    step_token_cases h
  · cases other
  · cases other
  · obtain ⟨s, other⟩ := (stringStep_eq_token string).1
    cases other
  · obtain ⟨c, other⟩ := (charStep_eq_token character).1
    cases other
  · obtain ⟨n, other, -⟩ := (numberStep_eq_token number).2.1
    cases other
  · simp only [identStep] at ident
    cases ident
    exact ⟨by rw [isIdentPart, start, Bool.true_or], rfl, rfl⟩

/-- An identifier is on one line. -/
theorem newline_not_mem_of_ident {name : String}
    (h : step first rest = .token (.ident name) more len) :
    Source.newline ∉ first :: rest.take more := by
  obtain ⟨start, rfl, -⟩ := step_eq_ident h
  rw [take_length_takeWhile]
  intro member
  rcases List.mem_cons.1 member with rfl | later
  · rw [not_isIdentPart_newline] at start
    cases start
  · exact absurd (List.mem_takeWhile_imp later) (by rw [not_isIdentPart_newline]; decide)

/-- The location of an identifier stops behind its last glyph. -/
theorem finish_of_ident {name : String} (file : String) (p : Position)
    (h : step first rest = .token (.ident name) more len) :
    Location.finish ⟨file, p.line, p.col, len, none⟩ = p.advance (first :: rest.take more) := by
  rw [Position.advance_of_not_mem p (newline_not_mem_of_ident h)]
  obtain ⟨-, rfl, rfl⟩ := step_eq_ident h
  rw [take_length_takeWhile]
  simp only [Location.finish, Option.getD_none, Position.mk.injEq, true_and, List.length_cons]
  push_cast
  omega

/-- The glyph after an identifier is no part of one. -/
theorem head?_after_ident {name : String} (h : step first rest = .token (.ident name) more len) :
    ∀ g ∈ (rest.drop more).head?, isIdentPart g.rune = false := by
  obtain ⟨-, rfl, -⟩ := step_eq_ident h
  intro g hg
  rw [drop_length_takeWhile] at hg
  have stop := List.head?_dropWhile_not (fun g : Glyph => isIdentPart g.rune) rest
  rw [hg] at stop
  exact stop

/-- The tokens of what is left of a source stand behind the place that has been reached, and
identifiers do not start there if what is left does not start like one. -/
theorem le_start_of_scan {file : String} {p : Position} {source : Source} {tokens : List Token}
    (h : scan file p source = .ok tokens) :
    ∀ t ∈ tokens, p ≤ t.loc.start ∧
      ((∀ g ∈ source.head?, isIdentPart g.rune = false) → t.IsIdent → p < t.loc.start) := by
  induction p, source using scan.induct file generalizing tokens with
  | case1 p =>
    rw [scan] at h
    obtain rfl := Except.ok.inj h
    simp
  | case2 p first rest more skips ih =>
    rw [scan, skips] at h
    intro t ht
    have later := (Position.lt_advance p first (rest.take more)).trans_le (ih h t ht).1
    exact ⟨later.le, fun _ _ => later⟩
  | case3 p first rest value more len takes later read ih =>
    simp only [scan, takes, read] at h
    obtain rfl := Except.ok.inj h
    refine List.forall_mem_cons.2 ⟨⟨le_refl p, ?_⟩, ?_⟩
    · rintro other ⟨name, rfl⟩
      have start := (step_eq_ident takes).1
      rw [other first rfl] at start
      cases start
    · intro t ht
      have after := (Position.lt_advance p first (rest.take more)).trans_le (ih read t ht).1
      exact ⟨after.le, fun _ _ => after⟩
  | case4 p first rest value more len takes problem fails ih =>
    simp only [scan, takes, fails] at h
    cases h
  | case5 p first rest cause len faults =>
    rw [scan, faults] at h
    cases h

/-- The tokens of a source stand one before the other. -/
theorem pairwise_before_of_scan {file : String} {p : Position} {source : Source}
    {tokens : List Token} (h : scan file p source = .ok tokens) : tokens.Pairwise Before := by
  induction p, source using scan.induct file generalizing tokens with
  | case1 p =>
    rw [scan] at h
    obtain rfl := Except.ok.inj h
    exact .nil
  | case2 p first rest more skips ih =>
    rw [scan, skips] at h
    exact ih h
  | case3 p first rest value more len takes later read ih =>
    simp only [scan, takes, read] at h
    obtain rfl := Except.ok.inj h
    refine .cons ?_ (ih read)
    intro t ht
    obtain ⟨behind, strictly⟩ := le_start_of_scan read t ht
    constructor
    case start => exact (Position.lt_advance p first _).trans_le behind
    case finish =>
      rintro ⟨name, rfl⟩
      rw [finish_of_ident file p takes]
      exact behind
    case apart =>
      rintro ⟨name, rfl⟩ ident
      rw [finish_of_ident file p takes]
      exact strictly (head?_after_ident takes) ident
  | case4 p first rest value more len takes problem fails ih =>
    simp only [scan, takes, fails] at h
    cases h
  | case5 p first rest cause len faults =>
    rw [scan, faults] at h
    cases h

end Token

end LittleLisp
