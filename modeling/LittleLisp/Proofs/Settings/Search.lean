import LittleLisp.Proofs.FileTree.Ancestry
import LittleLisp.Settings.Search
import Mathlib.Data.List.Chain
import Mathlib.Data.List.Infix

/-!
# The settings that govern a directory

The search goes from a directory to the root of the file tree, along its `chain`. The first directory
on this way that has a settings file governs, unless the root of a repository comes before it
(`Governs`). What the search gives is what the settings file of this directory gives, good or bad, and
nothing if there is no such directory (`find_nearest`). So a file that cannot be used is never passed
over for one further out.

A step of the search takes off the last name of a directory. On the text of a path this is going to
the directory that the path is in, which is another one except at the root (`parents_chain`).
-/

namespace LittleLisp

namespace Settings

variable {t : FileTree} {a b dir : List String} {ds : List (List String)}

/-! ## Settings files -/

/-- Settings that can be used: the choice exists, the limit allows a round, and no text is empty. -/
structure Usable (s : Settings) : Prop where
  fallback : s.fallback = .trap ∨ s.fallback = .none
  maxRounds : 0 < s.maxRounds
  header : s.header ≠ ""
  types : s.types.string ≠ "" ∧ s.types.list ≠ "" ∧ s.types.any ≠ ""

theorem flaw?_eq_none_iff {s : Settings} : s.flaw? = none ↔ s.Usable := by
  obtain ⟨header, maxRounds, fallback, mangle, types⟩ := s
  have rest (known : fallback = .trap ∨ fallback = .none) :
      (if maxRounds ≤ 0 then some (Flaw.maxRounds maxRounds)
        else if header = "" then some .header
        else if types.string = "" ∨ types.list = "" ∨ types.any = "" then some .types
        else none) = none ↔ Usable ⟨header, maxRounds, fallback, mangle, types⟩ := by
    constructor
    · intro h
      split at h
      · cases h
      split at h
      · cases h
      split at h
      · cases h
      next pos filled all =>
        rw [not_or, not_or] at all
        exact ⟨known, Int.not_le.1 pos, filled, all⟩
    · rintro ⟨-, pos, filled, all⟩
      rw [if_neg (Int.not_le.2 pos), if_neg filled, if_neg (by rwa [not_or, not_or])]
  cases fallback with
  | trap => exact rest (.inl rfl)
  | none => exact rest (.inr rfl)
  | unknown text => exact iff_of_false nofun fun usable => nomatch usable.fallback

/-- The path of the settings file of a directory. -/
def pathIn (dir : List String) : String :=
  Path.ofNames (dir ++ [fileName])

/-- What the settings file of a directory says, if it is a file that can be read. -/
def settingsIn? (t : FileTree) (dir : List String) : Option Settings :=
  match t.kind? (dir ++ [fileName]) with
  | some (.file source) => source.text?.bind ofToml?
  | _ => none

/-- The settings file of a directory cannot be used. -/
inductive Fails (t : FileTree) (dir : List String) : LoadError → Prop where
  | unreadable (h : settingsIn? t dir = none) : Fails t dir (.unreadable (pathIn dir))
  | rejected {s : Settings} {flaw : Flaw} (h : settingsIn? t dir = some s)
    (flawed : s.flaw? = some flaw) : Fails t dir (.rejected (pathIn dir) flaw)

theorem loadIn_eq (t : FileTree) (dir : List String) :
    loadIn t dir = match settingsIn? t dir with
      | none => .error (.unreadable (pathIn dir))
      | some s => match s.flaw? with
        | some flaw => .error (.rejected (pathIn dir) flaw)
        | none => .ok ⟨pathIn dir, s⟩ := by
  simp only [loadIn, settingsIn?, pathIn]
  cases t.kind? (dir ++ [fileName]) with
  | none => rfl
  | some kind =>
    cases kind with
    | directory => rfl
    | file source =>
      simp only
      cases source.text? with
      | none => rfl
      | some text =>
        simp only [load, Option.bind_some]
        cases ofToml? text with
        | none => rfl
        | some s =>
          simp only
          cases s.flaw? <;> rfl

theorem loadIn_eq_ok_iff {found : Found} : loadIn t dir = .ok found ↔
    found.path = pathIn dir ∧ settingsIn? t dir = some found.settings ∧ found.settings.Usable := by
  rw [loadIn_eq, ← flaw?_eq_none_iff]
  constructor
  · intro h
    split at h
    · cases h
    · next s read =>
      split at h
      · cases h
      · next fine =>
        obtain rfl := Except.ok.inj h
        exact ⟨rfl, read, fine⟩
  · rintro ⟨path, read, fine⟩
    simp only [read, fine, ← path]

theorem loadIn_eq_error_iff {e : LoadError} : loadIn t dir = .error e ↔ Fails t dir e := by
  rw [loadIn_eq]
  constructor
  · intro h
    split at h
    · next unread =>
      obtain rfl := Except.error.inj h
      exact .unreadable unread
    · next s read =>
      split at h
      · next flaw flawed =>
        obtain rfl := Except.error.inj h
        exact .rejected read flawed
      · cases h
  · intro fails
    cases fails with
    | unreadable unread => simp only [unread]
    | rejected read flawed => simp only [read, flawed]

/-! ## The way to the root -/

/-- A directory and those around it, up to the root. -/
def chain (dir : List String) : List (List String) :=
  dir.inits.reverse

theorem chain_nil : chain [] = [[]] :=
  rfl

theorem chain_concat (dir : List String) (name : String) :
    chain (dir ++ [name]) = (dir ++ [name]) :: chain dir := by
  rw [chain, chain, List.inits_append]
  simp

/-- The way from a directory to the root: every directory but the root is followed by the one that
it is in. -/
structure IsWay (dir : List String) (way : List (List String)) : Prop where
  start : way.head? = some dir
  steps : way.IsChain fun b around => b ≠ [] ∧ around = b.dropLast
  stop : way.getLast? = some []

theorem isWay_chain (dir : List String) : IsWay dir (chain dir) := by
  induction dir using List.reverseRecOn with
  | nil => exact ⟨rfl, .singleton [], rfl⟩
  | append_singleton dir name ih =>
    rw [chain_concat]
    refine ⟨rfl, List.isChain_cons.2 ⟨fun around first => ?_, ih.steps⟩, ?_⟩
    · obtain rfl := Option.some.inj (ih.start.symm.trans first)
      exact ⟨by simp, List.dropLast_concat.symm⟩
    · rw [List.getLast?_cons, ih.stop]
      rfl

/-- The way goes from each path to the path that it is in, and only the root is in itself. -/
theorem parents_chain (plain : Path.Plain dir) : ∀ b ∈ chain dir,
    Path.parentNames (Path.ofNames b) = b.dropLast ∧
      (Path.parentNames (Path.ofNames b) = b ↔ b = []) := by
  intro b member
  have around : b <+: dir := (List.mem_inits b dir).1 (List.mem_reverse.1 member)
  have plain : Path.Plain b := fun name inside => plain name (around.subset inside)
  exact ⟨Path.parentNames_ofNames plain, Path.parentNames_eq_self_iff plain⟩

/-- The first of some directories that has a settings file, if no root of a repository comes before
it. -/
def Nearest (t : FileTree) (ds : List (List String)) (a : List String) : Prop :=
  ∃ inner outer, ds = inner ++ a :: outer ∧ t.exists? (a ++ [fileName]) = true ∧
    ∀ b ∈ inner, t.exists? (b ++ [fileName]) = false ∧ t.exists? (b ++ [rootMark]) = false

/-- The settings file of the first directory governs the second one. -/
def Governs (t : FileTree) (a dir : List String) : Prop :=
  Nearest t (chain dir) a

theorem not_nearest_nil : ¬ Nearest t [] a := by
  rintro ⟨inner, outer, split, -⟩
  cases inner <;> cases split

theorem nearest_cons : Nearest t (b :: ds) a ↔
    (t.exists? (b ++ [fileName]) = true ∧ a = b) ∨
      (t.exists? (b ++ [fileName]) = false ∧ t.exists? (b ++ [rootMark]) = false ∧
        Nearest t ds a) := by
  constructor
  · rintro ⟨inner, outer, split, has, passed⟩
    cases inner with
    | nil =>
      obtain ⟨rfl, -⟩ := List.cons.inj split
      exact .inl ⟨has, rfl⟩
    | cons first inner =>
      obtain ⟨rfl, rest⟩ := List.cons.inj split
      obtain ⟨here, later⟩ := List.forall_mem_cons.1 passed
      exact .inr ⟨here.1, here.2, inner, outer, rest, has, later⟩
  · rintro (⟨has, rfl⟩ | ⟨no_file, no_mark, inner, outer, rfl, has, passed⟩)
    · exact ⟨[], ds, rfl, has, List.forall_mem_nil _⟩
    · exact ⟨b :: inner, outer, rfl, has, List.forall_mem_cons.2 ⟨⟨no_file, no_mark⟩, passed⟩⟩

/-- There is at most one nearest settings file. -/
theorem Nearest.unique (ha : Nearest t ds a) (hb : Nearest t ds b) : a = b := by
  induction ds with
  | nil => exact absurd ha not_nearest_nil
  | cons d ds ih =>
    rcases nearest_cons.1 ha with ⟨has, rfl⟩ | ⟨none, -, later⟩
    · rcases nearest_cons.1 hb with ⟨-, rfl⟩ | ⟨none, -⟩
      · rfl
      · rw [has] at none
        cases none
    · rcases nearest_cons.1 hb with ⟨has, rfl⟩ | ⟨-, -, later'⟩
      · rw [has] at none
        cases none
      · exact ih later later'

/-! ## The search -/

/-- The search along some directories: a settings file or the root of a repository ends it. -/
def searchAlong (t : FileTree) : List (List String) → Except LoadError (Option Found)
  | [] => .ok none
  | dir :: around =>
    if t.exists? (dir ++ [fileName]) then (loadIn t dir).map some
    else if t.exists? (dir ++ [rootMark]) then .ok none
    else searchAlong t around

theorem searchUp_eq (t : FileTree) (reversed : List String) :
    searchUp t reversed =
      if t.exists? (reversed.reverse ++ [fileName]) then (loadIn t reversed.reverse).map some
      else if t.exists? (reversed.reverse ++ [rootMark]) then .ok none
      else match reversed with
        | [] => .ok none
        | _ :: around => searchUp t around := by
  rw [searchUp.eq_def]
  simp only
  cases loadIn t reversed.reverse <;> rfl

theorem find_eq (t : FileTree) (dir : List String) : find t dir = searchAlong t (chain dir) := by
  induction dir using List.reverseRecOn with
  | nil =>
    rw [find, searchUp_eq, chain_nil, searchAlong, searchAlong]
    rfl
  | append_singleton dir name ih =>
    rw [find, searchUp_eq, List.reverse_reverse, chain_concat, searchAlong, ← ih, find,
      List.reverse_concat]

/-- The search gives what the settings file of the nearest directory gives. -/
theorem searchAlong_of_nearest (h : Nearest t ds a) : searchAlong t ds = (loadIn t a).map some := by
  induction ds with
  | nil => exact absurd h not_nearest_nil
  | cons b ds ih =>
    rw [searchAlong]
    rcases nearest_cons.1 h with ⟨has, rfl⟩ | ⟨no_file, no_mark, around⟩
    · rw [if_pos has]
    · rw [if_neg (Bool.eq_false_iff.1 no_file), if_neg (Bool.eq_false_iff.1 no_mark), ih around]

theorem searchAlong_of_none (h : ∀ a, ¬ Nearest t ds a) : searchAlong t ds = .ok none := by
  induction ds with
  | nil => rfl
  | cons b ds ih =>
    rw [searchAlong]
    split
    · next has => exact absurd (nearest_cons.2 (.inl ⟨has, rfl⟩)) (h b)
    split
    · rfl
    · next no_file no_mark =>
      refine ih fun a around => h a (nearest_cons.2 (.inr ⟨?_, ?_, around⟩))
      · exact Bool.eq_false_iff.2 no_file
      · exact Bool.eq_false_iff.2 no_mark

theorem map_some_eq_ok_iff {r : Except LoadError Found} {found : Found} :
    r.map some = .ok (some found) ↔ r = .ok found := by
  cases r <;> simp [Except.map]

theorem map_some_eq_error_iff {r : Except LoadError Found} {e : LoadError} :
    r.map some = .error e ↔ r = .error e := by
  cases r <;> simp [Except.map]

theorem map_some_ne_ok_none (r : Except LoadError Found) : r.map some ≠ .ok none := by
  cases r <;> simp [Except.map]

/-- **The settings that govern a directory.** A search that starts anywhere goes the way to the root:
from each path to the path that it is in, until this is the same path. The search gives settings
exactly if the settings file of the directory that governs says these settings and they can be used;
the path is then that of this file. It gives nothing exactly if no directory governs, and it fails
exactly if the settings file of the directory that governs cannot be used. -/
theorem find_nearest (t : FileTree) (cwd : List String) (start : String) :
    let dir := Path.absoluteNames cwd start
    IsWay dir (chain dir) ∧
    (Path.Plain cwd → ∀ b ∈ chain dir, Path.parentNames (Path.ofNames b) = b.dropLast ∧
      (Path.parentNames (Path.ofNames b) = b ↔ b = [])) ∧
    (∀ found, find t dir = .ok (some found) ↔ ∃ a, Governs t a dir ∧ found.path = pathIn a ∧
      settingsIn? t a = some found.settings ∧ found.settings.Usable) ∧
    (find t dir = .ok none ↔ ∀ a, ¬ Governs t a dir) ∧
    (∀ e, find t dir = .error e ↔ ∃ a, Governs t a dir ∧ Fails t a e) := by
  intro dir
  refine ⟨isWay_chain dir, fun plain => parents_chain (plain.absoluteNames start), ?_⟩
  rw [find_eq]
  by_cases free : ∀ a, ¬ Governs t a dir
  · have nowhere (P : List String → Prop) : ¬ ∃ a, Governs t a dir ∧ P a :=
      fun ⟨a, governs, _⟩ => free a governs
    rw [searchAlong_of_none free]
    exact ⟨fun found => iff_of_false nofun (nowhere _), iff_of_true rfl free,
      fun e => iff_of_false nofun (nowhere _)⟩
  · obtain ⟨a, governs⟩ := not_forall_not.1 free
    have here (P : List String → Prop) : (∃ b, Governs t b dir ∧ P b) ↔ P a :=
      ⟨fun ⟨b, also, p⟩ => governs.unique also ▸ p, fun p => ⟨a, governs, p⟩⟩
    rw [searchAlong_of_nearest governs]
    simp only [here, map_some_eq_ok_iff, map_some_eq_error_iff, loadIn_eq_ok_iff,
      loadIn_eq_error_iff, free, map_some_ne_ok_none, implies_true, and_self]

/-- A project with settings that cannot be used, below a directory with settings that can be. -/
def flawedInside : FileTree :=
  ⟨[(["lili.toml"], .ofString ""), (["p", "lili.toml"], .ofString "max_rounds = 0")], []⟩

/-- A search that starts in a directory that does not exist ends at the flawed settings. -/
theorem find_nearest_flawedInside : Path.Plain ["p"] ∧
    (∀ b ∈ chain ["p", "src"], Path.parentNames (Path.ofNames b) = b.dropLast ∧
      (Path.parentNames (Path.ofNames b) = b ↔ b = [])) ∧
    find flawedInside ["p", "src"] = .error (.rejected "/p/lili.toml" (.maxRounds 0)) := by
  have plain : Path.Plain ["p"] := by decide
  obtain ⟨-, up, -, -, fails⟩ := find_nearest flawedInside ["p"] "src"
  have here : Path.absoluteNames ["p"] "src" = ["p", "src"] := by decide
  rw [here] at up fails
  have governs : Governs flawedInside ["p"] ["p", "src"] :=
    ⟨[["p", "src"]], [[]], rfl, by decide, by decide⟩
  have read : settingsIn? flawedInside ["p"] = some { maxRounds := 0 } := by decide +kernel
  exact ⟨plain, up plain, (fails _).2 ⟨["p"], governs, .rejected read rfl⟩⟩

end Settings

end LittleLisp
