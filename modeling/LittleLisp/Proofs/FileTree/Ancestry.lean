import LittleLisp.Proofs.FileTree.Creation

/-!
# The directory that a path is in

An absolute path without detours and its names say the same: the text is cut at its slashes into these
names again (`split_ofNames`). So the path that a path is in has all names but the last one
(`parentNames_ofNames`), and the root is the only path that is in itself.
-/

namespace LittleLisp.Path

variable {names dir : List String} {path : String}

/-- Names that can stand in a path without detours. -/
def Plain (names : List String) : Prop :=
  ∀ name ∈ names, IsStep name ∧ '/' ∉ name.toList

instance (names : List String) : Decidable (Plain names) :=
  inferInstanceAs (Decidable (∀ name ∈ names, _ ∧ _))

theorem Plain.direct (h : Plain names) : Direct names :=
  fun name member => (h name member).1

theorem Plain.dropLast (h : Plain names) : Plain names.dropLast :=
  fun name member => h name (List.dropLast_subset names member)

/-! ## Pieces of a path -/

theorem splitChars_append {piece : List Char} (h : '/' ∉ piece) (rest : List Char) :
    splitChars (piece ++ '/' :: rest) = piece :: splitChars rest := by
  induction piece with
  | nil => rw [List.nil_append, splitChars, if_pos rfl]
  | cons c piece ih =>
    rw [List.mem_cons, not_or] at h
    rw [List.cons_append, splitChars, if_neg (Ne.symm h.1), ih h.2]

theorem splitChars_of_not_mem {piece : List Char} (h : '/' ∉ piece) :
    splitChars piece = [piece] := by
  induction piece with
  | nil => rfl
  | cons c piece ih =>
    rw [List.mem_cons, not_or] at h
    rw [splitChars, if_neg (Ne.symm h.1), ih h.2]

theorem not_mem_of_mem_splitChars {cs piece : List Char} (h : piece ∈ splitChars cs) :
    '/' ∉ piece := by
  induction cs generalizing piece with
  | nil =>
    obtain rfl := List.mem_singleton.1 h
    exact List.not_mem_nil
  | cons c rest ih =>
    rw [splitChars] at h
    split at h
    · rcases List.mem_cons.1 h with rfl | later
      · exact List.not_mem_nil
      · exact ih later
    · next other =>
      cases pieces : splitChars rest with
      | nil =>
        rw [pieces] at h
        obtain rfl := List.mem_singleton.1 h
        simpa using Ne.symm other
      | cons first more =>
        rw [pieces] at h ih
        rcases List.mem_cons.1 h with rfl | later
        · simp [Ne.symm other, ih List.mem_cons_self]
        · exact ih (List.mem_cons_of_mem _ later)

theorem splitChars_intercalate {pieces : List (List Char)} (some_piece : pieces ≠ [])
    (h : ∀ piece ∈ pieces, '/' ∉ piece) : splitChars (['/'].intercalate pieces) = pieces := by
  induction pieces with
  | nil => exact absurd rfl some_piece
  | cons piece pieces ih =>
    obtain ⟨own, others⟩ := List.forall_mem_cons.1 h
    cases pieces with
    | nil => rw [List.intercalate_singleton, splitChars_of_not_mem own]
    | cons next more =>
      rw [List.intercalate_cons_cons, List.append_assoc, List.singleton_append,
        splitChars_append own, ih (List.cons_ne_nil _ _) others]

/-- A path from the root has its names after a first one that is empty. -/
theorem split_ofNames (some_name : names ≠ []) (h : Plain names) :
    split (ofNames names) = "" :: names := by
  have text : (ofNames names).toList = '/' :: ['/'].intercalate (names.map String.toList) := by
    rw [ofNames, joinNames, String.toList_append, String.toList_intercalate]
    rfl
  have pieces : ∀ piece ∈ names.map String.toList, '/' ∉ piece := by
    rw [List.forall_mem_map]
    exact fun name member => (h name member).2
  rw [split, text, splitChars, if_pos rfl, splitChars_intercalate (by simpa using some_name) pieces,
    List.map_cons, List.map_map]
  simp

/-- The path that a path is in has the same names but the last one. -/
theorem parentNames_ofNames (h : Plain names) : parentNames (ofNames names) = names.dropLast := by
  cases names with
  | nil => rfl
  | cons first rest =>
    have stays : cleanNames true ("" :: (first :: rest).dropLast) =
        cleanNames true (first :: rest).dropLast := by
      rw [cleanNames, List.foldl_cons, cleanStep_stay (.inl rfl), cleanNames]
    rw [parentNames, split_ofNames (List.cons_ne_nil _ _) h, List.dropLast_cons_cons, stays,
      cleanNames_of_direct h.dropLast.direct]

/-- Only the root is in itself. -/
theorem parentNames_eq_self_iff (h : Plain names) :
    parentNames (ofNames names) = names ↔ names = [] := by
  rw [parentNames_ofNames h]
  refine ⟨fun same => ?_, fun root => root ▸ rfl⟩
  have length := congrArg List.length same
  rw [List.length_dropLast] at length
  exact List.length_eq_zero_iff.1 (by omega)

/-! ## Absolute paths -/

theorem Plain.cleanStep {done : List String} {name : String} (h : Plain done)
    (own : '/' ∉ name.toList) : Plain (cleanStep true done name) := by
  rw [Path.cleanStep.eq_def]
  split
  · exact h
  · next goes =>
    split
    · cases done with
      | nil => exact List.forall_mem_nil _
      | cons last before =>
        obtain ⟨⟨on, -⟩, others⟩ := List.forall_mem_cons.1 h
        simp only [if_neg on.2.2]
        exact others
    · next not_back =>
      rw [not_or] at goes
      exact List.forall_mem_cons.2 ⟨⟨⟨goes.1, goes.2, not_back⟩, own⟩, h⟩

theorem plain_cleanNames (h : ∀ name ∈ names, '/' ∉ name.toList) :
    Plain (cleanNames true names) := by
  have folded (done : List String) (plain : Plain done) :
      Plain (names.foldl (Path.cleanStep true) done) := by
    induction names generalizing done with
    | nil => exact plain
    | cons name rest ih =>
      obtain ⟨own, others⟩ := List.forall_mem_cons.1 h
      exact ih others _ (plain.cleanStep own)
  intro name member
  exact folded [] (List.forall_mem_nil _) name (List.mem_reverse.1 member)

/-- An absolute path has no detours. -/
theorem Plain.absoluteNames {cwd : List String} (h : Plain cwd) (path : String) :
    Plain (absoluteNames cwd path) := by
  have pieces : ∀ name ∈ split path, '/' ∉ name.toList := by
    rw [split, List.forall_mem_map]
    intro piece member
    rw [String.toList_ofList]
    exact not_mem_of_mem_splitChars member
  rw [Path.absoluteNames]
  split
  · exact plain_cleanNames pieces
  · exact plain_cleanNames
      (List.forall_mem_append.2 ⟨fun name member => (h name member).2, pieces⟩)

end LittleLisp.Path
