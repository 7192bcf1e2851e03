import LittleLisp.Proofs.Inference.Locality
import LittleLisp.Proofs.SymbolTable.Sound
import LittleLisp.Proofs.Token.Order
import LittleLisp.Proofs.Tree.WellFormed
import LittleLisp.Server.Document

/-!
# The identifier under the cursor

An editor's range includes the place right after its last character, so two identifiers that touch
would both be under a cursor between them. The lexer never makes such identifiers, and the reader
keeps the order of what it reads: the identifiers of the trees are some of the tokens, one before the
other (`Ordered.run`). A form reaches from before its first identifier to behind its last one
(`Encloses`). So there is at most one identifier under a cursor, and looking for it form by form finds
it (`mentionAt?_of_parse`).
-/

namespace LittleLisp

open Server (identsOf)

/-- The token that an identifier was read from. -/
def Node.Written.token (w : Node.Written) : Token :=
  ⟨.ident w.name, w.loc⟩

theorem Node.Written.isIdent_token (w : Node.Written) : w.token.IsIdent :=
  ⟨w.name, rfl⟩

/-! ## Identifiers of forms -/

namespace Node

theorem identsOf_call (members : List Node) (l : Location) :
    identsOf (.call members l) = members.flatMap identsOf := by
  rw [identsOf, walk, walkAll_eq, List.filterMap_cons_none (by rfl), List.filterMap_flatMap]
  rfl

theorem identsOf_cond (clauses : List (Node × Node)) (l : Location) :
    identsOf (.cond clauses l) = clauses.flatMap fun c => identsOf c.1 ++ identsOf c.2 := by
  rw [identsOf, walk, walkClauses_eq, List.filterMap_cons_none (by rfl), List.filterMap_flatMap]
  simp only [List.filterMap_append]
  rfl

/-- Clauses have the identifiers of the forms that they were. -/
theorem flatMap_identsOf_clauses {args : List Node} {cs : List (Node × Node)}
    (h : clauses args = .ok cs) :
    (cs.flatMap fun c => identsOf c.1 ++ identsOf c.2) = args.flatMap identsOf := by
  induction args generalizing cs with
  | nil =>
    obtain rfl := Except.ok.inj h
    rfl
  | cons n rest ih =>
    simp only [clauses] at h
    split at h
    · cases h
    · next c first =>
      split at h
      · cases h
      · next later read =>
        obtain rfl := Except.ok.inj h
        obtain ⟨l, rfl, -⟩ := clause_eq_ok first
        rw [List.flatMap_cons, List.flatMap_cons, ih read, identsOf_call]
        simp

/-- A form that is closed has the identifiers of its members, but for the word `cond`. -/
theorem identsOf_ofMembers {members : List Node} {l : Location} {n : Node}
    (h : ofMembers members l = .ok n) :
    (identsOf n).Sublist (members.flatMap identsOf) ∧ n.loc = l := by
  obtain ⟨rfl, -⟩ | ⟨head, args, cs, rfl, -, read, rfl⟩ := ofMembers_eq_ok h
  · exact ⟨by rw [identsOf_call], rfl⟩
  · refine ⟨?_, rfl⟩
    rw [identsOf_cond, flatMap_identsOf_clauses read, List.flatMap_cons]
    exact List.sublist_append_right _ _

/-- A tree reaches from before its first identifier to behind its last one. -/
def Encloses (n : Node) : Prop :=
  ∀ w ∈ identsOf n, n.loc.start ≤ w.loc.start ∧ w.loc.finish ≤ n.loc.finish

/-- The identifiers of some trees, as the tokens that they were read from. -/
def identTokens (ns : List Node) : List Token :=
  (ns.flatMap identsOf).map Written.token

theorem identTokens_append (ns ms : List Node) :
    identTokens (ns ++ ms) = identTokens ns ++ identTokens ms := by
  rw [identTokens, List.flatMap_append, List.map_append, identTokens, identTokens]

end Node

open Node (identTokens)

/-! ## The reader -/

namespace Reader

/-- The tokens that an open form has kept: its opening parenthesis and identifiers. -/
def Frame.kept (frame : Frame) : List Token :=
  ⟨.opening, frame.start⟩ :: identTokens frame.members.reverse

namespace State

/-- The tokens that the reader has kept, in the order in which they were read. -/
def kept (s : State) : List Token :=
  identTokens s.done.reverse ++ s.frames.reverse.flatMap Frame.kept

theorem kept_cons (frame : Frame) (outer : List Frame) (done : List Node) :
    kept ⟨frame :: outer, done⟩ = kept ⟨outer, done⟩ ++ frame.kept := by
  rw [kept, kept, List.reverse_cons, List.flatMap_append, List.flatMap_singleton, List.append_assoc]

theorem kept_add (s : State) (n : Node) : (s.add n).kept = s.kept ++ identTokens [n] := by
  obtain ⟨frames, done⟩ := s
  cases frames with
  | nil =>
    simp only [State.add, kept, List.reverse_cons, Node.identTokens_append, List.reverse_nil,
      List.flatMap_nil, List.append_nil]
  | cons frame outer =>
    simp only [State.add, kept_cons, Frame.kept, List.reverse_cons, Node.identTokens_append,
      List.append_assoc, List.cons_append]

/-- A form that is closed encloses its identifiers, which its parentheses stand around. -/
theorem encloses_of_close {frame : Frame} {t : Token} {n : Node}
    (ordered : (frame.kept ++ [t]).Pairwise Token.Before)
    (made : Node.ofMembers frame.members.reverse (formLocation frame.start t.loc) = .ok n) :
    n.Encloses := by
  obtain ⟨sublist, place⟩ := Node.identsOf_ofMembers made
  rw [Frame.kept, List.cons_append, List.pairwise_cons, List.pairwise_append] at ordered
  obtain ⟨opening, -, -, closing⟩ := ordered
  intro w hw
  have member : w.token ∈ identTokens frame.members.reverse :=
    List.mem_map_of_mem (sublist.subset hw)
  rw [place]
  constructor
  · exact (opening w.token (List.mem_append_left _ member)).start.le
  · have closed : t.loc.start < (formLocation frame.start t.loc).finish :=
      Position.lt_iff.2 (.inr ⟨rfl, Int.lt_succ t.loc.col⟩)
    have stops := (closing w.token member t List.mem_cons_self).finish w.isIdent_token
    exact stops.trans closed.le

/-- What the reader has kept and what it is still to read stand one before the other, and the
finished trees enclose their identifiers. -/
structure Ordered (s : State) (rest : List Token) : Prop where
  ordered : (s.kept ++ rest).Pairwise Token.Before
  encloses : ∀ n ∈ s.done, n.Encloses

variable {s s' : State} {t : Token} {rest : List Token}

/-- A tree is finished that has kept some tokens. -/
theorem Ordered.add {n : Node} (ordered : ((s.add n).kept ++ rest).Pairwise Token.Before)
    (done : ∀ n ∈ s.done, n.Encloses) (encloses : n.Encloses) : (s.add n).Ordered rest := by
  refine ⟨ordered, ?_⟩
  obtain ⟨frames, trees⟩ := s
  cases frames with
  | nil => exact List.forall_mem_cons.2 ⟨encloses, done⟩
  | cons frame outer => exact done

theorem Ordered.close (h : s.Ordered (t :: rest)) (closed : s.close t.loc = .ok s') :
    s'.Ordered rest := by
  obtain ⟨frames, done⟩ := s
  obtain ⟨ordered, encloses⟩ := h
  cases frames with
  | nil => cases closed
  | cons frame outer =>
    simp only [State.close] at closed
    split at closed
    · next n made =>
      obtain rfl := Except.ok.inj closed
      rw [kept_cons, List.append_assoc, List.append_cons frame.kept] at ordered
      refine Ordered.add ?_ encloses ?_
      · -- The parentheses and the word `cond` are not kept any longer.
        have kept : (identTokens [n]).Sublist (frame.kept ++ [t]) := by
          rw [identTokens, List.flatMap_singleton, Frame.kept, List.cons_append]
          exact ((Node.identsOf_ofMembers made).1.map _).trans
            ((List.sublist_append_left _ _).trans (List.sublist_cons_self _ _))
        rw [kept_add, List.append_assoc]
        exact ordered.sublist ((kept.append_right rest).append_left _)
      · have last : (frame.kept ++ [t]).Sublist (kept ⟨outer, done⟩ ++ (frame.kept ++ [t] ++ rest)) :=
          (List.sublist_append_left _ rest).trans (List.sublist_append_right _ _)
        exact encloses_of_close (ordered.sublist last) made
    · cases closed

/-- A leaf is kept if it is an identifier, and else dropped. -/
theorem Ordered.leaf {n : Node} (h : s.Ordered (t :: rest))
    (kept : (identTokens [n]).Sublist [t]) (encloses : n.Encloses) : (s.add n).Ordered rest := by
  refine Ordered.add ?_ h.encloses encloses
  have ordered := h.ordered
  rw [List.append_cons, List.append_assoc] at ordered
  rw [kept_add, List.append_assoc]
  exact ordered.sublist ((kept.append_right rest).append_left _)

/-- A token keeps everything in order. -/
theorem Ordered.step (h : s.Ordered (t :: rest)) (taken : s.step t = .ok s') :
    s'.Ordered rest := by
  obtain ⟨v, l⟩ := t
  cases v with
  | opening =>
    obtain rfl := Except.ok.inj taken
    refine ⟨?_, h.encloses⟩
    rw [kept_cons, List.append_assoc]
    exact h.ordered
  | closing => exact h.close taken
  | int value =>
    obtain rfl := Except.ok.inj taken
    exact h.leaf (List.nil_sublist _) (List.forall_mem_nil _)
  | char value =>
    obtain rfl := Except.ok.inj taken
    exact h.leaf (List.nil_sublist _) (List.forall_mem_nil _)
  | str value =>
    obtain rfl := Except.ok.inj taken
    exact h.leaf (List.nil_sublist _) (List.forall_mem_nil _)
  | ident name =>
    obtain rfl := Except.ok.inj taken
    exact h.leaf (List.Sublist.refl _) (List.forall_mem_singleton.2 ⟨le_refl _, le_refl _⟩)

/-- The trees of a run enclose their identifiers, and these stand one before the other. -/
theorem Ordered.run {forms : List Node} (h : s.Ordered rest) (ran : s.run rest = .ok forms) :
    (identTokens forms).Pairwise Token.Before ∧ ∀ n ∈ forms, n.Encloses := by
  induction rest generalizing s with
  | nil =>
    obtain ⟨frames, done⟩ := s
    cases frames with
    | nil =>
      obtain rfl := Except.ok.inj ran
      refine ⟨h.ordered.sublist ?_, fun n hn => h.encloses n (List.mem_reverse.1 hn)⟩
      simp [kept]
    | cons frame outer => cases ran
  | cons t rest ih =>
    simp only [State.run] at ran
    split at ran
    · next next taken => exact ih (h.step taken) ran
    · cases ran

end State

end Reader

/-- The identifiers of a source stand one before the other, and its trees enclose them. -/
theorem Node.ordered_of_parse {file : String} {source : Source} {forms : List Node}
    (parsed : Node.parse file source = .ok forms) :
    (identTokens forms).Pairwise Token.Before ∧ ∀ n ∈ forms, n.Encloses := by
  unfold Node.parse at parsed
  split at parsed
  · next tokens lexed =>
    have empty : Reader.State.empty.Ordered tokens :=
      ⟨Token.pairwise_before_of_scan lexed, List.forall_mem_nil _⟩
    exact empty.run parsed
  · cases parsed

/-! ## Cursors -/

/-- Of things that exclude each other, at most one is there. -/
theorem length_filter_le_one {α : Type} {R : α → α → Prop} {p : α → Bool} {l : List α}
    (ordered : l.Pairwise R) (apart : ∀ a b, R a b → p a = true → p b = false) :
    (l.filter p).length ≤ 1 := by
  have both := ordered.filter p
  have all : ∀ a ∈ l.filter p, p a = true := fun a ha => (List.mem_filter.1 ha).2
  generalize l.filter p = left at both all
  match left, both, all with
  | [], _, _ => exact Nat.zero_le 1
  | [_], _, _ => exact Nat.le_refl 1
  | a :: b :: rest, both, all =>
    have other := apart a b ((List.pairwise_cons.1 both).1 b List.mem_cons_self)
      (all a List.mem_cons_self)
    rw [all b (List.mem_cons_of_mem a List.mem_cons_self)] at other
    cases other

namespace Server

/-- The place in the source that a cursor stands before. -/
def Cursor.position (c : Cursor) : Position :=
  ⟨c.line + 1, c.character + 1⟩

theorem contains_iff {r : Range} {c : Cursor} : r.contains c = true ↔
    r.start.line ≤ c.line ∧ c.line ≤ r.stop.line ∧
      (c.line = r.start.line → r.start.character ≤ c.character) ∧
      (c.line = r.stop.line → c.character ≤ r.stop.character) := by
  simp only [Range.contains, Bool.and_eq_true, Bool.not_eq_true', decide_eq_true_iff,
    decide_eq_false_iff_not, not_and, Int.not_lt, and_assoc]

theorem contains_ofLocation_iff {l : Location} {c : Cursor} :
    (Range.ofLocation l).contains c = true ↔ l.start ≤ c.position ∧ c.position ≤ l.finish := by
  obtain ⟨file, line, col, len, stop⟩ := l
  rw [contains_iff, Position.le_iff, Position.le_iff]
  cases stop with
  | none =>
    simp only [Range.ofLocation, Location.start, Location.finish, Cursor.position,
      Option.getD_none]
    omega
  | some p =>
    simp only [Range.ofLocation, Location.start, Location.finish, Cursor.position,
      Option.getD_some]
    omega

/-- All identifiers under the cursor in one top-level form. -/
def mentionsIn (c : Cursor) (form : Node) : List Mention :=
  ((identsOf form).filter fun w => (Range.ofLocation w.loc).contains c).map
    fun w => ⟨w.name, w.loc, form⟩

/-- All identifiers under the cursor, and the top-level forms that they are in. -/
def mentionsAt (forms : List Node) (c : Cursor) : List Mention :=
  forms.flatMap (mentionsIn c)

/-- Identifiers are only looked for in a form that the cursor is in, and there are no others. -/
theorem mentionIn?_eq {form : Node} (encloses : form.Encloses) (c : Cursor) :
    mentionIn? c form = (mentionsIn c form).getLast? := by
  rw [mentionIn?, mentionsIn]
  split
  · rw [List.getLast?_map]
  · next outside =>
    have none : ((identsOf form).filter fun w => (Range.ofLocation w.loc).contains c) = [] := by
      rw [List.filter_eq_nil_iff]
      intro w hw inside
      obtain ⟨before, behind⟩ := encloses w hw
      obtain ⟨start, finish⟩ := contains_ofLocation_iff.1 inside
      exact outside (contains_ofLocation_iff.2 ⟨before.trans start, finish.trans behind⟩)
    rw [none]
    rfl

theorem length_mentionsAt (forms : List Node) (c : Cursor) :
    (mentionsAt forms c).length =
      ((forms.flatMap identsOf).filter fun w => (Range.ofLocation w.loc).contains c).length := by
  rw [mentionsAt, List.filter_flatMap, List.length_flatMap, List.length_flatMap]
  simp only [mentionsIn, List.length_map]

/-- At most one identifier of a source is under a cursor. -/
theorem length_mentionsAt_le_one {forms : List Node}
    (ordered : (identTokens forms).Pairwise Token.Before) (c : Cursor) :
    (mentionsAt forms c).length ≤ 1 := by
  rw [length_mentionsAt]
  refine length_filter_le_one (List.pairwise_map.1 ordered) ?_
  intro a b before under
  rw [Bool.eq_false_iff]
  intro both
  have finish := (contains_ofLocation_iff.1 under).2
  have start := (contains_ofLocation_iff.1 both).1
  have apart := before.apart a.isIdent_token b.isIdent_token
  exact lt_irrefl _ (apart.trans_le (start.trans finish))

/-- Looking form by form finds the first identifier under the cursor, if no form has several. -/
theorem mentionAt?_eq_head? {forms : List Node} (encloses : ∀ n ∈ forms, n.Encloses) {c : Cursor}
    (single : (mentionsAt forms c).length ≤ 1) :
    mentionAt? forms c = (mentionsAt forms c).head? := by
  induction forms with
  | nil => rfl
  | cons n rest ih =>
    obtain ⟨first, others⟩ := List.forall_mem_cons.1 encloses
    rw [mentionsAt, List.flatMap_cons, ← mentionsAt] at single ⊢
    rw [mentionAt?, List.findSome?_cons, mentionIn?_eq first, ← mentionAt?]
    generalize mentionsIn c n = found at single
    match found with
    | [] => exact ih others single
    | [m] => rfl
    | m :: m' :: more =>
      simp only [List.length_append, List.length_cons] at single
      omega

/-- An identifier under the cursor is the one that is found. -/
theorem mentionAt?_eq_some {file : String} {source : Source} {forms : List Node}
    (parsed : Node.parse file source = .ok forms) {form : Node} (hform : form ∈ forms)
    {w : Node.Written} (hw : w ∈ identsOf form) {c : Cursor}
    (under : (Range.ofLocation w.loc).contains c = true) :
    mentionAt? forms c = some ⟨w.name, w.loc, form⟩ := by
  obtain ⟨ordered, encloses⟩ := Node.ordered_of_parse parsed
  have single := length_mentionsAt_le_one ordered c
  have member : (⟨w.name, w.loc, form⟩ : Mention) ∈ mentionsAt forms c :=
    List.mem_flatMap.2 ⟨form, hform, List.mem_map.2 ⟨w, List.mem_filter.2 ⟨hw, under⟩, rfl⟩⟩
  rw [mentionAt?_eq_head? encloses single]
  generalize mentionsAt forms c = found at single member
  match found with
  | [] => cases member
  | [m] =>
    obtain rfl := List.mem_singleton.1 member
    rfl
  | m :: m' :: more =>
    simp only [List.length_cons] at single
    omega

/-- **The identifier under the cursor.** In a source that is read, at most one identifier is under a
cursor, its end included, and it is found together with the top-level form that it is in. -/
theorem mentionAt?_of_parse {file : String} {source : Source} {forms : List Node}
    (parsed : Node.parse file source = .ok forms) (c : Cursor) :
    (mentionsAt forms c).length ≤ 1 ∧ mentionAt? forms c = (mentionsAt forms c).head? := by
  obtain ⟨ordered, encloses⟩ := Node.ordered_of_parse parsed
  have single := length_mentionsAt_le_one ordered c
  exact ⟨single, mentionAt?_eq_head? encloses single⟩

/-- Two forms on three lines, with names and a string beyond ASCII. -/
def sampleText : Source :=
  .ofString "(defun é (x)\n (cond (x \"ü\")))\n(é T)"

/-- A cursor right after the second `x` finds it. -/
theorem mentionAt?_of_parse_sample : ∃ forms, Node.parse "sample" sampleText = .ok forms ∧
    ((mentionAt? forms ⟨1, 9⟩).any fun m => m.name == "x") = true ∧
    (mentionsAt forms ⟨1, 9⟩).length ≤ 1 ∧
    mentionAt? forms ⟨1, 9⟩ = (mentionsAt forms ⟨1, 9⟩).head? := by
  obtain ⟨forms, parsed, found⟩ : ∃ forms, Node.parse "sample" sampleText = .ok forms ∧
      ((mentionAt? forms ⟨1, 9⟩).any fun m => m.name == "x") = true :=
    exists_eq_ok (by decide +kernel)
  exact ⟨forms, parsed, found, mentionAt?_of_parse parsed _⟩

end Server

end LittleLisp
