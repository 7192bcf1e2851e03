import LittleLisp.FileTree
import Mathlib.Data.List.Induction

/-!
# What creating a file changes

Without links a path leads to the names that are left of it when it is made absolute and its detours
are taken out (`resolve_eq_ok`, `creatable_eq_ok`). A file that is created changes what stands at its
own names, and directories stay directories, so every other path leads where it did. `read_create`
puts this together: what is read at a path is the new text if the path means the same file, however
it is spelled, and the old text if it does not.
-/

namespace LittleLisp

namespace Path

/-- A name that leads on from a directory. -/
def IsStep (name : String) : Prop :=
  name ≠ "" ∧ name ≠ "." ∧ name ≠ ".."

instance (name : String) : Decidable (IsStep name) :=
  inferInstanceAs (Decidable (_ ∧ _))

/-- Names on the way from the root, without detours. -/
def Direct (names : List String) : Prop :=
  ∀ name ∈ names, IsStep name

instance (names : List String) : Decidable (Direct names) :=
  inferInstanceAs (Decidable (∀ name ∈ names, _))

/-- Two paths mean the same file, seen from the directory `cwd`. -/
def SameFile (cwd : List String) (a b : String) : Prop :=
  absoluteNames cwd a = absoluteNames cwd b

instance (cwd : List String) (a b : String) : Decidable (SameFile cwd a b) :=
  inferInstanceAs (Decidable (_ = _))

variable {here : List String} {name : String}

theorem Direct.append (h : Direct here) (on : IsStep name) : Direct (here ++ [name]) :=
  List.forall_mem_append.2 ⟨h, List.forall_mem_singleton.2 on⟩

theorem Direct.dropLast (h : Direct here) : Direct here.dropLast :=
  fun name member => h name (List.dropLast_subset here member)

/-! What is done with one more name, behind names without detours. -/

theorem cleanStep_on (on : IsStep name) (done : List String) :
    cleanStep true done name = name :: done := by
  obtain ⟨not_empty, not_dot, not_back⟩ := on
  simp [cleanStep, not_empty, not_dot, not_back]

theorem cleanStep_stay (stays : name = "" ∨ name = ".") (done : List String) :
    cleanStep true done name = done := by
  rw [cleanStep.eq_def, if_pos stays]

theorem cleanStep_back (h : Direct here) :
    cleanStep true here.reverse ".." = here.dropLast.reverse := by
  induction here using List.reverseRecOn with
  | nil => rfl
  | append_singleton before last _ =>
    have not_back : last ≠ ".." := (h last (by simp)).2.2
    rw [List.reverse_append, List.dropLast_concat]
    simp [cleanStep, not_back]

/-- Names without detours stay as they are. -/
theorem foldl_cleanStep_of_direct (h : Direct here) (done : List String) :
    here.foldl (cleanStep true) done = here.reverse ++ done := by
  induction here generalizing done with
  | nil => rfl
  | cons name rest ih =>
    obtain ⟨on, later⟩ := List.forall_mem_cons.1 h
    rw [List.foldl_cons, cleanStep_on on, ih later, List.reverse_cons, List.append_assoc,
      List.singleton_append]

theorem cleanNames_append (h : Direct here) (names : List String) :
    cleanNames true (here ++ names) = (names.foldl (cleanStep true) here.reverse).reverse := by
  rw [cleanNames, List.foldl_append, foldl_cleanStep_of_direct h, List.append_nil]

theorem cleanNames_of_direct (h : Direct here) : cleanNames true here = here := by
  have same := cleanNames_append h []
  rwa [List.append_nil, List.foldl_nil, List.reverse_reverse] at same

theorem cleanNames_concat (on : IsStep name) (names : List String) :
    cleanNames true (names ++ [name]) = cleanNames true names ++ [name] := by
  rw [cleanNames, List.foldl_append, List.foldl_cons, List.foldl_nil, cleanStep_on on,
    List.reverse_cons, cleanNames]

end Path

namespace FileTree

open LittleLisp.Path (Direct)

variable {t u : FileTree} {cwd here names dir : List String} {path name : String} {text : Source}

/-! ## Where paths lead -/

/-- A path leads to its names without detours. -/
theorem resolveFrom_eq_ok (direct : Direct here) (h : t.resolveFrom here names = .ok dir) :
    dir = Path.cleanNames true (here ++ names) ∧ Direct dir := by
  induction names generalizing here with
  | nil =>
    obtain rfl := Except.ok.inj h
    rw [List.append_nil, Path.cleanNames_of_direct direct]
    exact ⟨rfl, direct⟩
  | cons name rest ih =>
    rw [Path.cleanNames_append direct, List.foldl_cons]
    rw [resolveFrom] at h
    split at h
    · cases h
    · cases h
    · split at h
      · next stays =>
        rw [Path.cleanStep_stay stays, ← Path.cleanNames_append direct]
        exact ih direct h
      · next goes =>
        split at h
        · next back =>
          subst back
          rw [Path.cleanStep_back direct, ← Path.cleanNames_append direct.dropLast]
          exact ih direct.dropLast h
        · next not_back =>
          split at h
          · cases h
          · have on : Path.IsStep name := ⟨fun h => goes (.inl h), fun h => goes (.inr h), not_back⟩
            have further := direct.append on
            have longer : name :: here.reverse = (here ++ [name]).reverse := by simp
            rw [Path.cleanStep_on on, longer, ← Path.cleanNames_append further]
            exact ih further h

theorem direct_startOf (direct : Direct cwd) (path : String) : Direct (startOf cwd path) := by
  unfold startOf
  split
  · exact List.forall_mem_nil _
  · exact direct

theorem absoluteNames_eq (cwd : List String) (path : String) :
    Path.absoluteNames cwd path = Path.cleanNames true (startOf cwd path ++ Path.split path) := by
  unfold Path.absoluteNames startOf
  split <;> rfl

theorem resolve_eq_ok (direct : Direct cwd) (h : t.resolve cwd path = .ok names) :
    names = Path.absoluteNames cwd path := by
  unfold resolve at h
  split at h
  · cases h
  · rw [absoluteNames_eq]
    exact (resolveFrom_eq_ok (direct_startOf direct path) h).1

theorem creatableIn_eq_ok {slashed : Bool} (h : t.creatableIn dir name slashed = .ok names) :
    names = dir ++ [name] ∧ t.kind? dir = some .directory ∧ t.kind? names ≠ some .directory ∧
      name ≠ "." ∧ name ≠ ".." ∧ slashed = false := by
  unfold creatableIn at h
  split at h
  · cases h
  · cases h
  · next is_directory =>
    split at h
    · cases h
    · next plain =>
      obtain ⟨not_dot, not_back, not_slashed⟩ : name ≠ "." ∧ name ≠ ".." ∧ slashed = false := by
        simpa using plain
      split at h
      · cases h
      · split at h
        · cases h
        · next free =>
          obtain rfl := Except.ok.inj h
          exact ⟨rfl, is_directory, free, not_dot, not_back, not_slashed⟩

/-- The last name of a path that has no slash at its end. -/
theorem eq_concat_of_dropWhile {names before : List String}
    (split_eq : names.reverse.dropWhile (· == "") = name :: before)
    (no_slash : (names.reverse.head? == some "") = false) :
    names = before.reverse ++ [name] ∧ name ≠ "" := by
  cases shape : names.reverse with
  | nil =>
    rw [shape] at split_eq
    cases split_eq
  | cons last rest =>
    rw [shape] at split_eq no_slash
    have solid : (last == "") = false := by simpa using no_slash
    rw [List.dropWhile_cons, solid] at split_eq
    obtain ⟨rfl, rfl⟩ := List.cons.inj split_eq
    rw [← List.reverse_reverse names, shape, List.reverse_cons]
    exact ⟨rfl, by simpa using solid⟩

/-- A file can only be created in a directory, and not in the place of another directory. -/
theorem creatable_eq_ok (direct : Direct cwd) (h : t.creatable cwd path = .ok names) :
    names = Path.absoluteNames cwd path ∧
      ∃ dir name, names = dir ++ [name] ∧ t.kind? dir = some .directory ∧
        t.kind? names ≠ some .directory := by
  unfold creatable at h
  split at h
  · cases h
  · simp only at h
    split at h
    · cases h
    · next name before split_eq =>
      split at h
      · cases h
      · next dir leads =>
        obtain ⟨names_eq, is_directory, free, not_dot, not_back, no_slash⟩ := creatableIn_eq_ok h
        obtain ⟨path_eq, not_empty⟩ := eq_concat_of_dropWhile split_eq no_slash
        obtain ⟨dir_eq, -⟩ := resolveFrom_eq_ok (direct_startOf direct path) leads
        refine ⟨?_, dir, name, names_eq, is_directory, free⟩
        rw [absoluteNames_eq, path_eq, ← List.append_assoc,
          Path.cleanNames_concat ⟨not_empty, not_dot, not_back⟩, ← dir_eq, names_eq]

/-! ## What stands where -/

/-- There is something at some names or below them. -/
def Leads (t : FileTree) (names : List String) : Prop :=
  names = [] ∨ (∃ d ∈ t.dirs, names <+: d) ∨ ∃ f ∈ t.files, names <+: f.1

instance (t : FileTree) (names : List String) : Decidable (t.Leads names) :=
  inferInstanceAs (Decidable (_ ∨ _ ∨ _))

theorem kind?_of_lookup_eq_none (h : t.files.lookup names = none) :
    t.kind? names = if t.Leads names then some .directory else none := by
  have test : (names.isEmpty || t.dirs.any (names.isPrefixOf ·) ||
      t.files.any fun f => names.isPrefixOf f.1) = true ↔ t.Leads names := by
    simp [Leads, or_assoc]
  rw [kind?, h]
  simp only [test]

theorem kind?_of_lookup_eq_some (h : t.files.lookup names = some text) :
    t.kind? names = some (.file text) := by
  rw [kind?, h]

theorem leads_of_directory (h : t.kind? names = some .directory) : t.Leads names := by
  cases stored : t.files.lookup names with
  | some text =>
    rw [kind?_of_lookup_eq_some stored] at h
    cases h
  | none =>
    rw [kind?_of_lookup_eq_none stored] at h
    by_contra nothing
    rw [if_neg nothing] at h
    cases h

/-- What is found does not depend on entries with other keys. -/
theorem lookup_filter {α : Type} {p : List String × α → Bool} (keeps : ∀ a, p (names, a) = true)
    (entries : List (List String × α)) : (entries.filter p).lookup names = entries.lookup names := by
  induction entries with
  | nil => rfl
  | cons entry rest ih =>
    obtain ⟨key, a⟩ := entry
    by_cases same : names = key
    · subst same
      rw [List.filter_cons_of_pos (keeps a), List.lookup_cons_self, List.lookup_cons_self]
    · have other : (names == key) = false := beq_false_of_ne same
      rw [List.filter_cons, List.lookup_cons, other]
      split
      · rw [List.lookup_cons, other]
        exact ih
      · exact ih

theorem lookup_write (t : FileTree) (names : List String) (text : Source) (other : List String) :
    (t.write names text).files.lookup other =
      if other = names then some text else t.files.lookup other := by
  rw [write, List.lookup_cons]
  by_cases same : other = names
  · rw [if_pos same, beq_iff_eq.2 same]
  · rw [if_neg same, beq_false_of_ne same]
    exact lookup_filter (fun _ => decide_eq_true same) t.files

/-- Nothing new is above a file in a directory that was there. -/
theorem leads_write {other : List String} (dir_leads : t.Leads dir) (text : Source)
    (not_here : other ≠ dir ++ [name]) :
    (t.write (dir ++ [name]) text).Leads other ↔ t.Leads other := by
  have above (le : other <+: dir) : t.Leads other := by
    rcases dir_leads with rfl | ⟨d, hd, leads⟩ | ⟨f, hf, leads⟩
    · exact .inl (List.prefix_nil.1 le)
    · exact .inr (.inl ⟨d, hd, le.trans leads⟩)
    · exact .inr (.inr ⟨f, hf, le.trans leads⟩)
  constructor
  · rintro (root | made | ⟨f, hf, leads⟩)
    · exact .inl root
    · exact .inr (.inl made)
    · rcases List.mem_cons.1 hf with rfl | old
      · rcases List.prefix_concat_iff.1 leads with same | le
        · exact absurd same not_here
        · exact above le
      · exact .inr (.inr ⟨f, (List.mem_filter.1 old).1, leads⟩)
  · rintro (root | made | ⟨f, hf, leads⟩)
    · exact .inl root
    · exact .inr (.inl made)
    · by_cases replaced : f.1 = dir ++ [name]
      · exact .inr (.inr ⟨_, List.mem_cons_self, replaced ▸ leads⟩)
      · have kept : f ∈ t.files.filter (·.1 ≠ dir ++ [name]) :=
          List.mem_filter.2 ⟨hf, by simpa using replaced⟩
        exact .inr (.inr ⟨f, List.mem_cons_of_mem _ kept, leads⟩)

/-- Only what stands at the names of the file changes. -/
theorem kind?_write (is_directory : t.kind? dir = some .directory) (name : String)
    (text : Source) (other : List String) :
    (t.write (dir ++ [name]) text).kind? other =
      if other = dir ++ [name] then some (.file text) else t.kind? other := by
  have found := lookup_write t (dir ++ [name]) text other
  split
  · next same =>
    rw [if_pos same] at found
    exact kind?_of_lookup_eq_some found
  · next elsewhere =>
    rw [if_neg elsewhere] at found
    cases stored : t.files.lookup other with
    | some old => rw [kind?_of_lookup_eq_some (found.trans stored), kind?_of_lookup_eq_some stored]
    | none =>
      -- No file is there, before or after, so there is a directory or nothing.
      have dir_leads := leads_of_directory is_directory
      rw [kind?_of_lookup_eq_none (found.trans stored), kind?_of_lookup_eq_none stored]
      exact if_congr (leads_write dir_leads text elsewhere) rfl rfl

theorem resolveFrom_of_directories
    (stay : ∀ dir, t.kind? dir = some .directory → u.kind? dir = some .directory)
    (h : t.resolveFrom here names = .ok dir) : u.resolveFrom here names = .ok dir := by
  induction names generalizing here with
  | nil => exact h
  | cons name rest ih =>
    rw [resolveFrom] at h ⊢
    split at h
    · cases h
    · cases h
    · next is_directory =>
      rw [stay here is_directory]
      simp only
      split at h
      · next stays => rw [if_pos stays, ih h]
      · next goes =>
        rw [if_neg goes]
        split at h
        · next back => rw [if_pos back, ih h]
        · next on =>
          rw [if_neg on]
          split at h
          · cases h
          · next short => rw [if_neg short, ih h]

theorem resolve_of_directories
    (stay : ∀ dir, t.kind? dir = some .directory → u.kind? dir = some .directory)
    (h : t.resolve cwd path = .ok names) : u.resolve cwd path = .ok names := by
  unfold resolve at h ⊢
  split at h
  · cases h
  · exact resolveFrom_of_directories stay h

theorem read_eq_ok : t.read cwd path = .ok text ↔
    ∃ names, t.resolve cwd path = .ok names ∧ t.kind? names = some (.file text) := by
  unfold read
  split
  · next e failed => simp [failed]
  · next names leads =>
    simp only [leads, Except.ok.injEq, exists_eq_left']
    split <;> simp_all

/-- A file that is created changes what is read at the paths that mean it, and at no other path. -/
theorem read_create (direct : Direct cwd) (h : t.create cwd path text = .ok u) {other : String}
    {old : Source} (was : t.read cwd other = .ok old) :
    u.read cwd other = .ok (if Path.SameFile cwd path other then text else old) := by
  unfold create at h
  split at h
  · next names can =>
    obtain rfl := Except.ok.inj h
    obtain ⟨names_eq, dir, name, rfl, is_directory, free⟩ := creatable_eq_ok direct can
    obtain ⟨there, leads, stored⟩ := read_eq_ok.1 was
    have same := kind?_write is_directory name text
    have stay (d : List String) (hd : t.kind? d = some .directory) :
        (t.write (dir ++ [name]) text).kind? d = some .directory := by
      have not_here : d ≠ dir ++ [name] := by
        rintro rfl
        exact free hd
      rw [same, if_neg not_here, hd]
    refine read_eq_ok.2 ⟨there, resolve_of_directories stay leads, ?_⟩
    rw [same, stored, resolve_eq_ok direct leads, names_eq]
    have turned : Path.absoluteNames cwd other = Path.absoluteNames cwd path ↔
        Path.SameFile cwd path other := eq_comm
    simp only [turned]
    split <;> rfl
  · cases h

end FileTree

end LittleLisp
