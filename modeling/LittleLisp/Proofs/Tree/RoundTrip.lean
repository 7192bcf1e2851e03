import LittleLisp.Proofs.Source.Utf8
import LittleLisp.Proofs.Tree.Induction
import LittleLisp.Proofs.Tree.WellFormed
import LittleLisp.Tree.Printer

/-!
# Printed trees are read back

The text of a well-formed tree is read as the tokens of that tree, before anything that can follow
it, and the tokens of a well-formed tree are read as the tree, in whatever state the reader is. Only
the places of the nodes are lost; `erase` takes them away.
-/

namespace LittleLisp

namespace Node

/-! ## Trees without places -/

/-- The place of a node whose place does not matter. -/
def nowhere : Location :=
  ⟨"", 0, 0, 0, none⟩

mutual

/-- A tree without its places. -/
def erase : Node → Node
  | .call members _ => .call (eraseAll members) nowhere
  | .int value _ => .int value nowhere
  | .char value _ => .char value nowhere
  | .str value _ => .str value nowhere
  | .ident name _ => .ident name nowhere
  | .cond clauses _ => .cond (eraseClauses clauses) nowhere

/-- Trees without their places. -/
def eraseAll : List Node → List Node
  | [] => []
  | n :: rest => n.erase :: eraseAll rest

/-- Clauses without their places. -/
def eraseClauses : List (Node × Node) → List (Node × Node)
  | [] => []
  | (condition, result) :: rest => (condition.erase, result.erase) :: eraseClauses rest

end

@[simp] theorem eraseAll_eq (ns : List Node) : eraseAll ns = ns.map erase := by
  induction ns with
  | nil => rfl
  | cons n rest ih => rw [eraseAll, ih, List.map_cons]

theorem eq_call_of_erase {n : Node} {members : List Node} {l : Location}
    (h : n.erase = .call members l) : ∃ ns k, n = .call ns k ∧ ns.map erase = members := by
  cases n with
  | call ns k =>
    simp only [erase, eraseAll_eq] at h
    exact ⟨ns, k, rfl, (Node.call.inj h).1⟩
  | int | char | str | ident | cond => simp [erase] at h

theorem eq_ident_of_erase {n : Node} {name : String} {l : Location}
    (h : n.erase = .ident name l) : ∃ k, n = .ident name k := by
  cases n with
  | ident word k =>
    simp only [erase] at h
    exact ⟨k, by rw [(Node.ident.inj h).1]⟩
  | int | char | str | call | cond => simp [erase] at h

/-- Whether a tree is the word `cond` does not depend on its place. -/
theorem isCondWord_of_erase {n m : Node} (same : n.erase = m.erase) (h : n.IsCondWord) :
    m.IsCondWord := by
  obtain ⟨name, l, rfl, named⟩ := h
  have word : m.erase = .ident name nowhere := same.symm
  obtain ⟨k, rfl⟩ := eq_ident_of_erase word
  exact ⟨name, k, rfl, named⟩

theorem isCond_of_erase {n m : Node} (same : n.erase = m.erase) (h : n.IsCond) : m.IsCond := by
  obtain ⟨clauses, l, rfl⟩ := h
  cases m with
  | cond cs k => exact ⟨cs, k, rfl⟩
  | int | char | str | call | ident => simp [erase] at same

/-! ## From text to tokens -/

open Token (Scans Ends)

mutual

/-- The values of the tokens of a tree. -/
def values : Node → List Token.Value
  | .call members _ => .opening :: (memberValues members ++ [.closing])
  | .int value _ => [.int value]
  | .char value _ => [.char value]
  | .str value _ => [.str value]
  | .ident name _ => [.ident name]
  | .cond clauses _ => .opening :: .ident condWord :: (clauseValues clauses ++ [.closing])

/-- The values of the tokens of trees. -/
def memberValues : List Node → List Token.Value
  | [] => []
  | n :: rest => n.values ++ memberValues rest

/-- The values of the tokens of clauses. -/
def clauseValues : List (Node × Node) → List Token.Value
  | [] => []
  | (condition, result) :: rest =>
    .opening :: (condition.values ++ (result.values ++ .closing :: clauseValues rest))

end

/-- The text of a tree is read as the tokens of that tree, before anything that can follow it. -/
def Prints (n : Node) : Prop :=
  ∀ {rest : List Char} {vs : List Token.Value}, Ends rest → Scans rest vs →
    Scans (n.chars ++ rest) (n.values ++ vs)

theorem scans_space {rest : List Char} {vs : List Token.Value} (h : Scans rest vs) :
    Scans (' ' :: rest) vs :=
  Token.scans_blank (by decide) h

theorem ends_space (rest : List Char) : Ends (' ' :: rest) :=
  .cons (by simp) rest

theorem ends_closing (rest : List Char) : Ends (')' :: rest) :=
  .cons (by simp) rest

theorem scans_memberChars {members : List Node} (each : ∀ n ∈ members, n.Prints)
    {rest : List Char} {vs : List Token.Value} (ends : Ends rest) (h : Scans rest vs) :
    Scans (memberChars members ++ rest) (memberValues members ++ vs) := by
  induction members with
  | nil => exact h
  | cons n members ih =>
    obtain ⟨first, later⟩ := List.forall_mem_cons.1 each
    cases members with
    | nil =>
      simpa [memberChars, memberValues] using first ends h
    | cons m members =>
      have tail := scans_space (ih later)
      simpa [memberChars, memberValues] using first (ends_space _) tail

theorem scans_clauseChars {clauses : List (Node × Node)}
    (each : ∀ c ∈ clauses, c.1.Prints ∧ c.2.Prints) {rest : List Char} {vs : List Token.Value}
    (h : Scans rest vs) : Scans (clauseChars clauses ++ rest) (clauseValues clauses ++ vs) := by
  induction clauses with
  | nil => exact h
  | cons c clauses ih =>
    obtain ⟨⟨condition, result⟩, later⟩ := List.forall_mem_cons.1 each
    have closed := Token.scans_closing (ih later)
    have both := condition (ends_space _) (scans_space (result (ends_closing _) closed))
    simpa [clauseChars, clauseValues] using scans_space (Token.scans_opening both)

theorem isIdentifier_condWord : Token.IsIdentifier condWord := by
  decide

/-- The clauses of a conditional, and the parenthesis after them, end the word before them. -/
theorem ends_clauseChars (clauses : List (Node × Node)) (rest : List Char) :
    Ends (clauseChars clauses ++ ')' :: rest) := by
  cases clauses with
  | nil => exact ends_closing rest
  | cons c clauses => exact ends_space _

/-- The text of every well-formed tree is read as its tokens. -/
theorem WellFormed.prints {n : Node} (h : n.WellFormed) : n.Prints := by
  induction n using Node.induction with
  | int value l =>
    cases h with
    | int least most =>
      intro rest vs ends tail
      exact Token.scans_int ⟨least, most⟩ ends tail
  | char value l =>
    cases h with
    | char narrow =>
      intro rest vs ends tail
      exact Token.scans_char narrow tail
  | str value l =>
    intro rest vs ends tail
    exact Token.scans_str value tail
  | ident name l =>
    cases h with
    | ident identifier =>
      intro rest vs ends tail
      exact Token.scans_ident identifier ends tail
  | call members l ih =>
    cases h with
    | call each head =>
      intro rest vs ends tail
      have inside := scans_memberChars (fun n hn => ih n hn (each n hn)) (ends_closing rest)
        (Token.scans_closing tail)
      simpa [chars, values] using Token.scans_opening inside
  | cond clauses l ih =>
    cases h with
    | cond conditions results plain =>
      intro rest vs ends tail
      have inside := scans_clauseChars
        (fun c hc => ⟨(ih c hc).1 (conditions c hc), (ih c hc).2 (results c hc)⟩)
        (Token.scans_closing tail)
      have whole := Token.scans_ident isIdentifier_condWord (ends_clauseChars clauses rest) inside
      simpa [chars, values] using Token.scans_opening whole

/-! ## From tokens to trees -/

open Reader (State)

/-- The tokens of a tree are read as that tree, in any state and before anything. -/
def Reads (n : Node) : Prop :=
  ∀ (s : State) {tokens : List Token}, tokens.map (·.value) = n.values →
    ∃ n', n'.erase = n.erase ∧ ∀ rest, s.run (tokens ++ rest) = (s.add n').run rest

theorem run_of_step {s s' : State} {t : Token} (h : s.step t = .ok s') (rest : List Token) :
    s.run (t :: rest) = s'.run rest := by
  rw [State.run, h]

/-- A tree of one token is read as soon as that token is taken. -/
theorem reads_of_step {n : Node} {v : Token.Value} (single : n.values = [v])
    (made : Location → Node) (same : ∀ l, (made l).erase = n.erase)
    (taken : ∀ (s : State) l, s.step ⟨v, l⟩ = .ok (s.add (made l))) : n.Reads := by
  intro s tokens h
  rw [single] at h
  obtain ⟨t, rfl, rfl⟩ := List.map_eq_singleton_iff.1 h
  exact ⟨made t.loc, same t.loc, fun rest => run_of_step (taken s t.loc) rest⟩

theorem reads_ident (name : String) (l : Location) : (ident name l).Reads :=
  reads_of_step rfl (.ident name) (fun _ => rfl) (fun _ _ => rfl)

/-- Trees are read one after the other. -/
theorem run_members {members : List Node} (each : ∀ n ∈ members, n.Reads) (s : State)
    {tokens : List Token} (h : tokens.map (·.value) = memberValues members) :
    ∃ ns : List Node, ns.map erase = members.map erase ∧
      ∀ rest, s.run (tokens ++ rest) = (ns.foldl State.add s).run rest := by
  induction members generalizing s tokens with
  | nil =>
    obtain rfl := List.map_eq_nil_iff.1 h
    exact ⟨[], rfl, fun rest => rfl⟩
  | cons n members ih =>
    obtain ⟨first, later⟩ := List.forall_mem_cons.1 each
    obtain ⟨front, back, rfl, h_front, h_back⟩ := List.map_eq_append_iff.1 h
    obtain ⟨n', same, step⟩ := first s h_front
    obtain ⟨ns, others, steps⟩ := ih later (s.add n') h_back
    refine ⟨n' :: ns, by rw [List.map_cons, List.map_cons, same, others], ?_⟩
    intro rest
    rw [List.append_assoc, step, steps, List.foldl_cons]

theorem foldl_add_open (ns : List Node) (start : Location) (members : List Node)
    (outer : List Reader.Frame) (done : List Node) :
    ns.foldl State.add ⟨⟨start, members⟩ :: outer, done⟩ =
      ⟨⟨start, ns.reverse ++ members⟩ :: outer, done⟩ := by
  induction ns generalizing members with
  | nil => rfl
  | cons n rest ih => simpa [State.add] using ih (n :: members)

theorem foldl_add_empty (ns done : List Node) :
    ns.foldl State.add ⟨[], done⟩ = ⟨[], ns.reverse ++ done⟩ := by
  induction ns generalizing done with
  | nil => rfl
  | cons n rest ih => simpa [State.add] using ih (n :: done)

/-- What stands between two parentheses is read as the form of the members between them. -/
theorem run_form {members : List Node} (each : ∀ n ∈ members, n.Reads) (s : State)
    {tokens : List Token}
    (h : tokens.map (·.value) = .opening :: (memberValues members ++ [.closing])) :
    ∃ (ns : List Node) (l : Location), ns.map erase = members.map erase ∧
      ∀ n, ofMembers ns l = .ok n → ∀ rest, s.run (tokens ++ rest) = (s.add n).run rest := by
  obtain ⟨opening, inner, rfl, h_opening, h_inner⟩ := List.map_eq_cons_iff.1 h
  obtain ⟨inside, last, rfl, h_inside, h_last⟩ := List.map_eq_append_iff.1 h_inner
  obtain ⟨closing, rfl, h_closing⟩ := List.map_eq_singleton_iff.1 h_last
  obtain ⟨ns, same, steps⟩ := run_members each ⟨⟨opening.loc, []⟩ :: s.frames, s.done⟩ h_inside
  refine ⟨ns, Reader.formLocation opening.loc closing.loc, same, ?_⟩
  intro n made rest
  have opens : s.step opening = .ok ⟨⟨opening.loc, []⟩ :: s.frames, s.done⟩ := by
    rw [State.step, h_opening]
  have closes : State.step ⟨⟨opening.loc, ns.reverse⟩ :: s.frames, s.done⟩ closing =
      .ok (s.add n) := by
    simp only [State.step, h_closing, State.close, List.reverse_reverse, made]
  calc s.run (opening :: (inside ++ [closing]) ++ rest)
      = State.run ⟨⟨opening.loc, []⟩ :: s.frames, s.done⟩ (inside ++ closing :: rest) := by
        rw [List.cons_append, run_of_step opens, List.append_assoc, List.singleton_append]
    _ = State.run ⟨⟨opening.loc, ns.reverse⟩ :: s.frames, s.done⟩ (closing :: rest) := by
        rw [steps, foldl_add_open, List.append_nil]
    _ = (s.add n).run rest := run_of_step closes rest

/-- A form that is not headed by `cond` is a call. -/
theorem ofMembers_of_not_isCondWord {members : List Node} (l : Location)
    (head : ∀ n ∈ members.head?, ¬ n.IsCondWord) : ofMembers members l = .ok (.call members l) := by
  unfold ofMembers
  split
  · next name at_ args =>
    rw [if_neg fun named => head _ rfl ⟨name, at_, rfl, named⟩]
  · rfl

theorem reads_call {members : List Node} (each : ∀ n ∈ members, n.Reads)
    (head : ∀ n ∈ members.head?, ¬ n.IsCondWord) (l : Location) : (call members l).Reads := by
  intro s tokens h
  obtain ⟨ns, at_, same, reads⟩ := run_form each s h
  have other : ∀ n ∈ ns.head?, ¬ n.IsCondWord := by
    intro n hn word
    have heads : (ns.map erase).head? = (members.map erase).head? := by rw [same]
    rw [List.head?_map, List.head?_map, Option.mem_def.1 hn] at heads
    obtain ⟨m, hm, eq⟩ := Option.map_eq_some_iff.1 heads.symm
    exact head m hm (isCondWord_of_erase eq.symm word)
  refine ⟨.call ns at_, by simp [erase, same], ?_⟩
  exact reads _ (ofMembers_of_not_isCondWord at_ other)

/-- A clause as the form that is written for it. -/
def clauseForm (c : Node × Node) : Node :=
  .call [c.1, c.2] nowhere

theorem memberValues_clauseForm (clauses : List (Node × Node)) :
    memberValues (clauses.map clauseForm) = clauseValues clauses := by
  induction clauses with
  | nil => rfl
  | cons c rest ih => simp [memberValues, clauseValues, clauseForm, values, ih]

theorem clause_of_not_isCond {condition : Node} (plain : ¬ condition.IsCond) (result : Node)
    (l : Location) : clause (.call [condition, result] l) = .ok (condition, result) := by
  cases condition with
  | cond nested k => exact absurd ⟨nested, k, rfl⟩ plain
  | int | char | str | call | ident => rfl

/-- Forms of two members each are clauses, as long as no condition is a conditional. -/
theorem clauses_of_erase {args : List Node} {cs : List (Node × Node)}
    (plain : ∀ c ∈ cs, ¬ c.1.IsCond) (same : args.map erase = (cs.map clauseForm).map erase) :
    ∃ ds, clauses args = .ok ds ∧ eraseClauses ds = eraseClauses cs := by
  induction cs generalizing args with
  | nil =>
    obtain rfl : args = [] := by simpa using same
    exact ⟨[], rfl, rfl⟩
  | cons c cs ih =>
    obtain ⟨first, later⟩ := List.forall_mem_cons.1 plain
    obtain ⟨n, rest, rfl, h_n, h_rest⟩ := List.map_eq_cons_iff.1 same
    obtain ⟨ds, read, others⟩ := ih later h_rest
    obtain ⟨ns, k, rfl, parts⟩ := eq_call_of_erase (h_n.trans rfl)
    obtain ⟨condition, last, rfl, h_condition, h_last⟩ := List.map_eq_cons_iff.1 parts
    obtain ⟨result, rfl, h_result⟩ := List.map_eq_singleton_iff.1 h_last
    have made : clause (.call [condition, result] k) = .ok (condition, result) :=
      clause_of_not_isCond (fun nested => first (isCond_of_erase h_condition nested)) result k
    refine ⟨(condition, result) :: ds, by simp only [clauses, made, read], ?_⟩
    rw [eraseClauses, eraseClauses, h_condition, h_result, others]

theorem reads_cond {cs : List (Node × Node)} (each : ∀ c ∈ cs, c.1.Reads ∧ c.2.Reads)
    (plain : ∀ c ∈ cs, ¬ c.1.IsCond ∧ ¬ c.1.IsCondWord) (l : Location) : (cond cs l).Reads := by
  intro s tokens h
  have forms : ∀ n ∈ cs.map clauseForm, n.Reads := by
    intro n hn
    obtain ⟨c, hc, rfl⟩ := List.mem_map.1 hn
    refine reads_call ?_ ?_ nowhere
    · simpa using each c hc
    · simpa using (plain c hc).2
  have members : ∀ n ∈ ident condWord nowhere :: cs.map clauseForm, n.Reads :=
    List.forall_mem_cons.2 ⟨reads_ident condWord nowhere, forms⟩
  obtain ⟨ns, at_, same, reads⟩ := run_form members s (by
    rw [h, memberValues, memberValues_clauseForm]
    rfl)
  obtain ⟨word, args, rfl, h_word, h_args⟩ := List.map_eq_cons_iff.1 same
  obtain ⟨k, rfl⟩ := eq_ident_of_erase (h_word.trans rfl)
  obtain ⟨ds, read, clauses_same⟩ := clauses_of_erase (fun c hc => (plain c hc).1) h_args
  have named : isNamed condWord condWord = true := by decide
  have made : ofMembers (ident condWord k :: args) at_ = .ok (.cond ds at_) := by
    simp only [ofMembers, named, read, if_true]
  exact ⟨.cond ds at_, by rw [erase, erase, clauses_same], reads _ made⟩

/-- The tokens of every well-formed tree are read as that tree. -/
theorem WellFormed.reads {n : Node} (h : n.WellFormed) : n.Reads := by
  induction n using Node.induction with
  | int value l => exact reads_of_step rfl (.int value) (fun _ => rfl) (fun _ _ => rfl)
  | char value l => exact reads_of_step rfl (.char value) (fun _ => rfl) (fun _ _ => rfl)
  | str value l => exact reads_of_step rfl (.str value) (fun _ => rfl) (fun _ _ => rfl)
  | ident name l => exact reads_ident name l
  | call members l ih =>
    cases h with
    | call each head => exact reads_call (fun n hn => ih n hn (each n hn)) head l
  | cond clauses l ih =>
    cases h with
    | cond conditions results plain =>
      have each : ∀ c ∈ clauses, c.1.Reads ∧ c.2.Reads := fun c hc =>
        ⟨(ih c hc).1 (conditions c hc), (ih c hc).2 (results c hc)⟩
      exact reads_cond each plain l

/-! ## Files of trees -/

/-- Trees on lines of their own are read as the tokens of all of them. -/
theorem scans_lines {forms : List Node} (each : ∀ n ∈ forms, n.Prints) :
    Scans (['\n'].intercalate (forms.map chars)) (memberValues forms) := by
  induction forms with
  | nil => exact Token.scans_nil
  | cons n forms ih =>
    obtain ⟨first, later⟩ := List.forall_mem_cons.1 each
    cases forms with
    | nil =>
      have ends : Ends [] := by
        intro c hc
        cases hc
      simpa [memberValues] using first ends Token.scans_nil
    | cons m forms =>
      have tail := Token.scans_blank (c := '\n') (by decide) (ih later)
      rw [List.map_cons, List.map_cons, List.intercalate_cons_cons, List.append_assoc,
        ← List.map_cons]
      exact first (.cons (by simp) _) tail

/-- A file of well-formed trees is read as those trees. -/
theorem parse_lines {forms : List Node} (each : ∀ n ∈ forms, n.WellFormed) (file : String) :
    ∃ read, parse file (Source.ofString ("\n".intercalate (forms.map text))) = .ok read ∧
      read.map erase = forms.map erase := by
  have chars_eq : ("\n".intercalate (forms.map text)).toList =
      ['\n'].intercalate (forms.map chars) := by
    simp [text, Function.comp_def]
  obtain ⟨tokens, scanned, same⟩ := scans_lines (fun n hn => (each n hn).prints) file .start
  obtain ⟨read, erased, run⟩ := run_members (fun n hn => (each n hn).reads) State.empty same
  refine ⟨read, ?_, erased⟩
  have lexed : Token.lex file (Source.ofString ("\n".intercalate (forms.map text))) = .ok tokens := by
    rw [Token.lex, Source.ofString, chars_eq, scanned]
  have finished : State.empty.run tokens = .ok read := by
    have all := run []
    rw [List.append_nil, State.empty, foldl_add_empty] at all
    rw [State.empty, all]
    simp [State.run, State.finish]
  rw [parse, lexed]
  exact finished

/-- Whatever is read from bytes is well formed, and a file of well-formed trees is read as those
trees, except for their places. -/
theorem parse_print_inverse :
    (∀ (file : String) (bytes : List UInt8) (forms : List Node),
      parse file (Source.ofBytes bytes) = .ok forms → ∀ n ∈ forms, n.WellFormed) ∧
    (∀ (file : String) (forms : List Node), (∀ n ∈ forms, n.WellFormed) →
      ∃ read, parse file (Source.ofBytes ("\n".intercalate (forms.map text)).toUTF8.data.toList) =
        .ok read ∧ read.map erase = forms.map erase) := by
  constructor
  · intro file bytes forms read
    exact wellFormed_of_mem_parse read
  · intro file forms each
    rw [Source.ofBytes_toUTF8]
    exact parse_lines each file

/-- A conditional, a call and a constant, with signs, quotes and bounds that need care. -/
def sampleTrees : List Node :=
  [.cond [(.ident "-a" nowhere, .str "\"\\\n" nowhere)] nowhere,
    .call [.ident "-" nowhere, .int (-2147483648) nowhere, .call [] nowhere] nowhere,
    .char '\'' nowhere]

theorem parse_print_inverse_sample :
    (∀ n ∈ sampleTrees, n.WellFormed) ∧
    ∃ read, parse "a.ll" (Source.ofBytes
        ("\n".intercalate (sampleTrees.map text)).toUTF8.data.toList) = .ok read ∧
      read.map erase = sampleTrees.map erase ∧ ∀ n ∈ read, n.WellFormed := by
  have name : (ident "-a" nowhere).WellFormed := .ident (by decide)
  have sign : (ident "-" nowhere).WellFormed := .ident (by decide)
  have other (word : String) (differs : isNamed word condWord = false) :
      ¬ (ident word nowhere).IsCondWord := by
    rintro ⟨_, _, same, named⟩
    cases same
    rw [differs] at named
    cases named
  have each : ∀ n ∈ sampleTrees, n.WellFormed := by
    simp only [sampleTrees, List.forall_mem_cons, List.not_mem_nil, false_implies, implies_true,
      and_true]
    refine ⟨.cond ?_ ?_ ?_, .call ?_ ?_, .char (by decide)⟩
    · simpa using name
    · simpa using WellFormed.str _ _
    · simpa [IsCond] using other "-a" (by decide)
    · simp only [List.forall_mem_cons, List.not_mem_nil, false_implies, implies_true, and_true]
      exact ⟨sign, .int (by decide) (by decide), .call (by simp) (by simp)⟩
    · simpa using other "-" (by decide)
  obtain ⟨read, parsed, same⟩ := parse_print_inverse.2 "a.ll" sampleTrees each
  exact ⟨each, read, parsed, same, parse_print_inverse.1 "a.ll" _ read parsed⟩

end Node

end LittleLisp
