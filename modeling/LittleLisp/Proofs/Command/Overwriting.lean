import LittleLisp.Command.Perform
import LittleLisp.Proofs.FileTree.Creation
import LittleLisp.Proofs.Lowering.Unit
import LittleLisp.Proofs.Token.Step
import LittleLisp.Proofs.Unit.Faults

/-!
# Which sources a compilation overwrites

Files are compiled before any of them is written, and units are written one after another. So after
a run, however it ends, the units of some first sources have been written (`writeUnits_run`), and a
source is what it was unless one of these went to the same file. The destination of a source is only
compared with the path of that source itself, as it is spelled: a detour back to the source is not
noticed (`compile_overwrites`), nor that the C text of one source goes to another.

A source that is overwritten never keeps its text by chance, since C text starts with a sign that no
token starts with (`parse_text`).
-/

namespace LittleLisp

/-- C text cannot be read as trees. -/
theorem CompiledUnit.parse_text (u : CompiledUnit) (file : String) (forms : List Node) :
    Node.parse file (Source.ofString u.text) ≠ .ok forms := by
  obtain ⟨rest, text_eq⟩ : ∃ rest, u.text.toList = '#' :: rest := by
    unfold text
    simp only [String.append_assoc]
    exact ⟨_, String.toList_append⟩
  have refused (rest : Source) : Token.step (.char '#') rest = .fault (.unknownToken '#') 1 := by
    have no_number : ¬ Token.startsNumber (.char '#') rest = true := by
      rw [Token.startsNumber_iff]
      rintro (digit | ⟨minus, -⟩)
      · exact absurd digit (by decide)
      · exact absurd minus (by decide)
    rw [Token.step_of_plain (by decide) (by decide), if_neg no_number, if_neg (by decide +kernel)]
  rw [Source.ofString, text_eq, List.map_cons, Node.parse, Token.lex, Token.scan, refused]
  simp

namespace Command

open LittleLisp.Path (SameFile)

/-- The file that the C text of a source is written to: none if it goes to standard output, or
nowhere because it would take the place of the source. -/
def target? (chosen source : String) : Option String :=
  match destination chosen source with
  | .ok path => if path = standardOutput then none else some path
  | .error _ => none

/-- The C text of a source is written to the file at a path. -/
def overwrites (cwd : List String) (chosen path source : String) : Bool :=
  (target? chosen source).any fun target => decide (SameFile cwd target path)

/-- The text of the file at a path after one more unit has been written. -/
def overwrite (cwd : List String) (chosen path : String) (text : Source) (u : CompiledUnit) :
    Source :=
  if overwrites cwd chosen path u.file then .ofString u.text else text

variable {w : Setting} {s : Settings} {o : Options} {cwd : List String} {chosen path : String}
  {paths : List String} {u : CompiledUnit} {units : List CompiledUnit} {done : Outcome}

theorem overwrites_iff {source : String} : overwrites cwd chosen path source = true ↔
    ∃ target, target? chosen source = some target ∧ SameFile cwd target path := by
  simp [overwrites, Option.any_eq_true]

/-! ## Writing -/

/-- A unit fails to be written, is no file, or is created as a file. -/
theorem writeUnit_cases (cwd : List String) (chosen : String) (done : Outcome) (u : CompiledUnit) :
    ((writeUnit cwd chosen done u).failure ≠ none ∧
      (writeUnit cwd chosen done u).tree = done.tree) ∨
    ((writeUnit cwd chosen done u).failure = done.failure ∧ target? chosen u.file = none ∧
      (writeUnit cwd chosen done u).tree = done.tree) ∨
    ∃ target, (writeUnit cwd chosen done u).failure = done.failure ∧
      target? chosen u.file = some target ∧
      done.tree.create cwd target (.ofString u.text) = .ok (writeUnit cwd chosen done u).tree := by
  unfold writeUnit target?
  cases destination chosen u.file with
  | error e => exact .inl ⟨nofun, rfl⟩
  | ok path =>
    simp only
    by_cases printed : path = standardOutput
    · rw [if_pos printed, if_pos printed]
      exact .inr (.inl ⟨rfl, rfl, rfl⟩)
    · rw [if_neg printed, if_neg printed]
      cases created : done.tree.create cwd path (.ofString u.text) with
      | error e => exact .inl ⟨nofun, rfl⟩
      | ok tree => exact .inr (.inr ⟨path, rfl, rfl, created⟩)

/-- What can be read is still read after a unit has been written, with the text of the unit if that
is the same file. -/
theorem read_writeUnit (direct : Path.Direct cwd) (fine : (writeUnit cwd chosen done u).failure = none)
    {old : Source} (was : done.tree.read cwd path = .ok old) :
    (writeUnit cwd chosen done u).tree.read cwd path =
      .ok (overwrite cwd chosen path old u) := by
  rcases writeUnit_cases cwd chosen done u with ⟨failed, -⟩ | ⟨-, no_target, same⟩ |
    ⟨target, -, is_target, created⟩
  · exact absurd fine failed
  · simp [same, was, overwrite, overwrites, no_target]
  · rw [FileTree.read_create direct created was]
    simp [overwrite, overwrites, is_target]

/-- Units are written up to the first that fails, and what can be read is read with the texts of
these. -/
theorem writeUnits_run (direct : Path.Direct cwd) (chosen : String) (units : List CompiledUnit)
    (done : Outcome) (fine : done.failure = none) :
    ∃ written, written <+: units ∧
      ((writeUnits cwd chosen done units).failure = none → written = units) ∧
      ∀ path old, done.tree.read cwd path = .ok old →
        (writeUnits cwd chosen done units).tree.read cwd path =
          .ok (written.foldl (overwrite cwd chosen path) old) := by
  induction units generalizing done with
  | nil => exact ⟨[], List.prefix_rfl, fun _ => rfl, fun _ _ was => was⟩
  | cons u rest ih =>
    rw [writeUnits]
    cases next : (writeUnit cwd chosen done u).failure with
    | some failure =>
      refine ⟨[], List.nil_prefix, ?_, ?_⟩
      · intro none
        rw [next] at none
        cases none
      · intro path old was
        rcases writeUnit_cases cwd chosen done u with ⟨-, same⟩ | ⟨kept, -⟩ | ⟨target, kept, -⟩
        · simp only [same, was, List.foldl_nil]
        · rw [kept, fine] at next
          cases next
        · rw [kept, fine] at next
          cases next
    | none =>
      obtain ⟨written, first, all, texts⟩ := ih _ next
      refine ⟨u :: written, List.cons_prefix_cons.2 ⟨rfl, first⟩, ?_, ?_⟩
      · intro none
        rw [all none]
      · intro path old was
        exact texts path _ (read_writeUnit direct next was)

/-- A file keeps its text, or has the text of a unit that was written to it. -/
theorem foldl_overwrite_cases (cwd : List String) (chosen path : String)
    (units : List CompiledUnit) (old : Source) :
    ((∀ u ∈ units, overwrites cwd chosen path u.file = false) ∧
      units.foldl (overwrite cwd chosen path) old = old) ∨
    ∃ u ∈ units, overwrites cwd chosen path u.file = true ∧
      units.foldl (overwrite cwd chosen path) old = .ofString u.text := by
  induction units using List.reverseRecOn with
  | nil => exact .inl ⟨List.forall_mem_nil _, rfl⟩
  | append_singleton before u ih =>
    rw [List.foldl_append, List.foldl_cons, List.foldl_nil, overwrite]
    cases here : overwrites cwd chosen path u.file with
    | true => exact .inr ⟨u, by simp, here, by simp⟩
    | false =>
      rcases ih with ⟨none, same⟩ | ⟨v, hv, written, text⟩
      · exact .inl ⟨List.forall_mem_append.2 ⟨none, List.forall_mem_singleton.2 here⟩, by simpa⟩
      · exact .inr ⟨v, List.mem_append_left _ hv, written, by simpa⟩

/-! ## Compiling -/

/-- A compiled file could be read, as trees of the language. -/
theorem compileFile_eq_ok (h : (compileFile w s path).result = .ok u) :
    u.file = path ∧ ∃ source forms, w.tree.read w.cwd path = .ok source ∧
      Node.parse path source = .ok forms := by
  unfold compileFile at h
  split at h
  · cases h
  · next source read =>
    simp only at h
    split at h
    · cases h
    · next made compiled =>
      obtain rfl := Except.ok.inj h
      obtain ⟨forms, parsed, work⟩ := CompiledUnit.ofForms_of_compile compiled
      obtain ⟨-, t, -, -, fs, -, rfl⟩ := CompiledUnit.ofForms_eq_ok_iff.1 work
      exact ⟨rfl, source, forms, read, parsed⟩

theorem compileFiles_eq_ok (h : (compileFiles w s paths).result = .ok units) :
    List.Forall₂ (fun path u => (compileFile w s path).result = .ok u) paths units := by
  induction paths generalizing units with
  | nil =>
    obtain rfl := Except.ok.inj h
    exact .nil
  | cons path rest ih =>
    simp only [compileFiles] at h
    split at h
    · cases h
    · next u first =>
      split at h
      · cases h
      · next us later =>
        obtain rfl := Except.ok.inj h
        exact .cons first (ih later)

theorem prepare_eq_ok (h : (prepare w o paths).result = .ok units) :
    units.map (·.file) = paths ∧ ∀ path ∈ paths, ∃ source forms,
      w.tree.read w.cwd path = .ok source ∧ Node.parse path source = .ok forms := by
  unfold prepare at h
  simp only at h
  split at h
  · cases h
  · next s loaded =>
    have compiled := compileFiles_eq_ok h
    clear h
    induction compiled with
    | nil => exact ⟨rfl, List.forall_mem_nil _⟩
    | cons first later ih =>
      obtain ⟨file, readable⟩ := compileFile_eq_ok first
      obtain ⟨files, others⟩ := ih
      exact ⟨by rw [List.map_cons, file, files], List.forall_mem_cons.2 ⟨readable, others⟩⟩

/-- **Which sources a compilation keeps.** After a run of the compiler, with success or not, the C
texts of some first sources have been written, after success of all. A source has the text that it
had exactly if none of these C texts went to the same file. -/
theorem compile_keeps_iff (direct : Path.Direct w.cwd) (o : Options) (paths : List String) :
    ∃ written, written <+: paths ∧ ((compile w o paths).failure = none → written = paths) ∧
      ∀ path ∈ paths,
        ((compile w o paths).tree.read w.cwd path = w.tree.read w.cwd path ↔
          ∀ source ∈ written, ∀ target, target? o.output source = some target →
            ¬ SameFile w.cwd target path) := by
  have nothing (out : Outcome) (failed : out.failure ≠ none) (same : out.tree = w.tree) :
      ∃ written, written <+: paths ∧ (out.failure = none → written = paths) ∧
        ∀ path ∈ paths, (out.tree.read w.cwd path = w.tree.read w.cwd path ↔
          ∀ source ∈ written, ∀ target, target? o.output source = some target →
            ¬ SameFile w.cwd target path) :=
    ⟨[], List.nil_prefix, fun none => absurd none failed, fun path _ => by simp [same]⟩
  unfold compile
  split
  · exact nothing _ nofun rfl
  · simp only
    split
    · exact nothing _ nofun rfl
    · next units prepared =>
      obtain ⟨files, readable⟩ := prepare_eq_ok prepared
      obtain ⟨written, first, all, texts⟩ := writeUnits_run direct o.output units
        { tree := w.tree, records := (prepare w o paths).records } rfl
      refine ⟨written.map (·.file), files ▸ first.map _, ?_, ?_⟩
      · intro none
        rw [all none, files]
      · intro path member
        obtain ⟨text, forms, was, parsed⟩ := readable path member
        rw [texts path text was, was, Except.ok.injEq]
        constructor
        · intro kept source hs target is_target same
          obtain ⟨v, hv, rfl⟩ := List.mem_map.1 hs
          rcases foldl_overwrite_cases w.cwd o.output path written text with
            ⟨none, -⟩ | ⟨u, -, -, replaced⟩
          · have hit := overwrites_iff.2 ⟨target, is_target, same⟩
            rw [none v hv] at hit
            cases hit
          · rw [replaced] at kept
            exact u.parse_text path forms (kept ▸ parsed)
        · intro none
          rcases foldl_overwrite_cases w.cwd o.output path written text with
            ⟨-, kept⟩ | ⟨u, hu, hit, -⟩
          · exact kept
          · obtain ⟨target, is_target, same⟩ := overwrites_iff.1 hit
            exact absurd same (none u.file (List.mem_map_of_mem hu) target is_target)

/-! ## Lost sources -/

/-- A run of the compiler, with success or not, leaves every source as it was. -/
def KeepsSources (w : Setting) (o : Options) (paths : List String) : Prop :=
  ∀ path ∈ paths, (compile w o paths).tree.read w.cwd path = w.tree.read w.cwd path

/-- A source in the directory `d`. -/
def oneSource : Setting :=
  ⟨⟨[(["d", "p.ll"], .ofString "(defun f (x) (+ x 1))")], []⟩, ["d"]⟩

/-- A detour out of that directory and back to the source. -/
def detour : Options :=
  { output := "../d/p.ll" }

/-- Two sources, of which the first has the place of the second as its destination. -/
def neighbours : Setting :=
  ⟨⟨[(["p.ll"], .ofString "(defun f (x) (+ x 1))"), (["p.c"], .ofString "(defun g () 2)")], []⟩, []⟩

/-- A detour overwrites the source, and the run succeeds. -/
theorem compile_keeps_iff_detour : Path.Direct oneSource.cwd ∧
    (compile oneSource detour ["p.ll"]).failure = none ∧
    ∃ target, target? detour.output "p.ll" = some target ∧ SameFile ["d"] target "p.ll" ∧
      (compile oneSource detour ["p.ll"]).tree.read ["d"] "p.ll" ≠
        oneSource.tree.read ["d"] "p.ll" := by
  have direct : Path.Direct oneSource.cwd := by decide
  have succeeds : (compile oneSource detour ["p.ll"]).failure = none :=
    Option.isNone_iff_eq_none.1 (by decide +kernel)
  have is_target : target? detour.output "p.ll" = some "../d/p.ll" := by decide +kernel
  have same : SameFile ["d"] "../d/p.ll" "p.ll" := by decide +kernel
  obtain ⟨written, -, all, kept⟩ := compile_keeps_iff direct detour ["p.ll"]
  refine ⟨direct, succeeds, _, is_target, same, ?_⟩
  intro keeps
  have source : "p.ll" ∈ written := by simp [all succeeds]
  exact (kept "p.ll" (by simp)).1 keeps "p.ll" source _ is_target same

/-- Compiling can destroy a source: by a detour, or by the C text of another source. -/
theorem compile_destroys_source : ¬ KeepsSources oneSource detour ["p.ll"] ∧
    ¬ KeepsSources neighbours {} ["p.ll", "p.c"] := by
  constructor
  · intro keeps
    exact absurd (keeps "p.ll" (by simp)) (by decide +kernel)
  · intro keeps
    exact absurd (keeps "p.c" (by simp)) (by decide +kernel)

end Command

end LittleLisp
