import LittleLisp.Proofs.Token.Scan
import LittleLisp.Tree.Reader

/-!
# The trees that the reader makes

A tree is well formed when its leaves are values that tokens can have, no call is headed by `cond`,
and no condition of a clause is a conditional or the word `cond`. The reader makes no other trees:
all that is in its hands stays well formed with every token that it takes.
-/

namespace LittleLisp

namespace Node

/-- The tree is the word `cond`, in any case. -/
def IsCondWord (n : Node) : Prop :=
  ∃ name l, n = .ident name l ∧ isNamed name condWord = true

/-- The tree is a conditional. -/
def IsCond (n : Node) : Prop :=
  ∃ clauses l, n = .cond clauses l

/-- A tree that can be read. -/
inductive WellFormed : Node → Prop
  | int {n : Int} {l : Location} : -2147483648 ≤ n → n ≤ 2147483647 → WellFormed (.int n l)
  | char {c : Char} {l : Location} : c.toNat < 0x80 → WellFormed (.char c l)
  | str (s : String) (l : Location) : WellFormed (.str s l)
  | ident {name : String} {l : Location} : Token.IsIdentifier name → WellFormed (.ident name l)
  | call {members : List Node} {l : Location} : (∀ n ∈ members, WellFormed n) →
      (∀ n ∈ members.head?, ¬ n.IsCondWord) → WellFormed (.call members l)
  | cond {clauses : List (Node × Node)} {l : Location} :
      (∀ c ∈ clauses, WellFormed c.1) → (∀ c ∈ clauses, WellFormed c.2) →
      (∀ c ∈ clauses, ¬ c.1.IsCond ∧ ¬ c.1.IsCondWord) → WellFormed (.cond clauses l)

/-! ## Forms that are closed -/

theorem clause_eq_ok {n : Node} {c : Node × Node} (h : clause n = .ok c) :
    ∃ l, n = .call [c.1, c.2] l ∧ ¬ c.1.IsCond := by
  unfold clause at h
  split at h
  · next condition result l =>
    split at h
    · cases h
    · next other =>
      obtain rfl := Except.ok.inj h
      refine ⟨l, rfl, ?_⟩
      rintro ⟨clauses, at_, rfl⟩
      exact other clauses at_ rfl
  · cases h

theorem clauses_eq_ok {args : List Node} {cs : List (Node × Node)} (h : clauses args = .ok cs) :
    ∀ c ∈ cs, ∃ n ∈ args, clause n = .ok c := by
  induction args generalizing cs with
  | nil =>
    obtain rfl := Except.ok.inj h
    simp
  | cons n rest ih =>
    simp only [clauses] at h
    split at h
    · cases h
    · next c first =>
      split at h
      · cases h
      · next later read =>
        obtain rfl := Except.ok.inj h
        refine List.forall_mem_cons.2 ⟨⟨n, by simp, first⟩, ?_⟩
        intro d hd
        obtain ⟨m, hm, same⟩ := ih read d hd
        exact ⟨m, List.mem_cons_of_mem _ hm, same⟩

/-- All that a form which is closed can become. -/
theorem ofMembers_eq_ok {ns : List Node} {l : Location} {n : Node} (h : ofMembers ns l = .ok n) :
    (n = .call ns l ∧ ∀ m ∈ ns.head?, ¬ m.IsCondWord) ∨
    ∃ head args cs, ns = head :: args ∧ head.IsCondWord ∧ clauses args = .ok cs ∧ n = .cond cs l := by
  unfold ofMembers at h
  split at h
  · next name at_ args =>
    split at h
    · next named =>
      split at h
      · next cs read =>
        exact .inr ⟨_, args, cs, rfl, ⟨name, at_, rfl, named⟩, read, (Except.ok.inj h).symm⟩
      · cases h
    · next other =>
      refine .inl ⟨(Except.ok.inj h).symm, ?_⟩
      rintro m hm ⟨word, k, rfl, named⟩
      cases Option.some.inj hm
      exact other named
  · next other =>
    refine .inl ⟨(Except.ok.inj h).symm, ?_⟩
    rintro m hm ⟨word, k, rfl, -⟩
    cases ns with
    | nil => cases hm
    | cons first rest =>
      obtain rfl := Option.some.inj hm
      exact other word k rest rfl

/-- A form of well-formed members that is closed is well formed. -/
theorem wellFormed_ofMembers {members : List Node} {l : Location} {n : Node}
    (each : ∀ m ∈ members, m.WellFormed) (h : ofMembers members l = .ok n) : n.WellFormed := by
  obtain ⟨rfl, head⟩ | ⟨word, args, cs, rfl, -, read, rfl⟩ := ofMembers_eq_ok h
  · exact .call each head
  · -- A clause was a call of its own, so its condition does not head a conditional.
    have parts : ∀ c ∈ cs, (c.1.WellFormed ∧ c.2.WellFormed) ∧ ¬ c.1.IsCond ∧ ¬ c.1.IsCondWord := by
      intro c hc
      obtain ⟨m, hm, made⟩ := clauses_eq_ok read c hc
      obtain ⟨at_, rfl, plain⟩ := clause_eq_ok made
      cases each _ (List.mem_cons_of_mem _ hm) with
      | call well_formed head =>
        exact ⟨⟨well_formed c.1 (by simp), well_formed c.2 (by simp)⟩, plain, head c.1 rfl⟩
    exact .cond (fun c hc => (parts c hc).1.1) (fun c hc => (parts c hc).1.2)
      (fun c hc => (parts c hc).2)

end Node

namespace Reader.State

/-- All that the reader has read is well formed. -/
structure WellFormed (s : State) : Prop where
  frames : ∀ frame ∈ s.frames, ∀ n ∈ frame.members, n.WellFormed
  done : ∀ n ∈ s.done, n.WellFormed

theorem WellFormed.add {s : State} (h : s.WellFormed) {n : Node} (hn : n.WellFormed) :
    (s.add n).WellFormed := by
  unfold State.add
  split
  · exact ⟨by simp, List.forall_mem_cons.2 ⟨hn, h.done⟩⟩
  · next frame outer open_ =>
    have frames := h.frames
    rw [open_] at frames
    obtain ⟨first, others⟩ := List.forall_mem_cons.1 frames
    exact ⟨List.forall_mem_cons.2 ⟨List.forall_mem_cons.2 ⟨hn, first⟩, others⟩, h.done⟩

theorem WellFormed.close {s s' : State} {l : Location} (h : s.WellFormed)
    (closed : s.close l = .ok s') : s'.WellFormed := by
  unfold State.close at closed
  split at closed
  · cases closed
  · next frame outer open_ =>
    have frames := h.frames
    rw [open_] at frames
    obtain ⟨first, others⟩ := List.forall_mem_cons.1 frames
    split at closed
    · next n made =>
      obtain rfl := Except.ok.inj closed
      have well_formed : n.WellFormed :=
        Node.wellFormed_ofMembers (fun m hm => first m (List.mem_reverse.1 hm)) made
      have outside : WellFormed ⟨outer, s.done⟩ := ⟨others, h.done⟩
      exact outside.add well_formed
    · cases closed

/-- A token keeps everything well formed. -/
theorem WellFormed.step {s s' : State} {t : Token} (h : s.WellFormed)
    (readable : t.value.IsReadable) (taken : s.step t = .ok s') : s'.WellFormed := by
  unfold State.step at taken
  split at taken
  · obtain rfl := Except.ok.inj taken
    exact ⟨List.forall_mem_cons.2 ⟨by simp, h.frames⟩, h.done⟩
  · exact h.close taken
  · next value shape =>
    obtain rfl := Except.ok.inj taken
    rw [shape] at readable
    exact h.add (.int readable.1 readable.2)
  · next value shape =>
    obtain rfl := Except.ok.inj taken
    rw [shape] at readable
    exact h.add (.char readable)
  · next value shape =>
    obtain rfl := Except.ok.inj taken
    exact h.add (.str value t.loc)
  · next name shape =>
    obtain rfl := Except.ok.inj taken
    rw [shape] at readable
    exact h.add (.ident readable)

/-- A run keeps everything well formed. -/
theorem WellFormed.run {s : State} {tokens : List Token} {forms : List Node} (h : s.WellFormed)
    (readable : ∀ t ∈ tokens, t.value.IsReadable) (ran : s.run tokens = .ok forms) :
    ∀ n ∈ forms, n.WellFormed := by
  induction tokens generalizing s with
  | nil =>
    simp only [State.run, State.finish] at ran
    split at ran
    · obtain rfl := Except.ok.inj ran
      exact fun n hn => h.done n (List.mem_reverse.1 hn)
    · cases ran
  | cons t rest ih =>
    obtain ⟨first, later⟩ := List.forall_mem_cons.1 readable
    simp only [State.run] at ran
    split at ran
    · next next taken => exact ih (h.step first taken) later ran
    · cases ran

end Reader.State

/-- Every tree that is read from a source is well formed. -/
theorem Node.wellFormed_of_mem_parse {file : String} {source : Source} {forms : List Node}
    (read : Node.parse file source = .ok forms) : ∀ n ∈ forms, n.WellFormed := by
  unfold Node.parse at read
  split at read
  · next tokens lexed =>
    have empty : Reader.State.empty.WellFormed := ⟨by simp [Reader.State.empty],
      by simp [Reader.State.empty]⟩
    exact empty.run (Token.isReadable_of_scan lexed) read
  · cases read

end LittleLisp
