import LittleLisp.Proofs.SymbolTable.Listing
import Mathlib.Data.List.Perm.Basic

/-!
# Tables of the same entries

Forms that define functions of different names add these functions to the library in the order of the
forms (`ofForms_of_distinct`). So the same forms in another order give the same entries in another
order, and since the names of entries differ, all names are looked up alike (`lookup_of_perm`).
-/

namespace LittleLisp

/-- Forms define functions, one each. -/
abbrev Definition.Read (forms : List Node) (ds : List Definition) : Prop :=
  List.Forall₂ (fun form d => ofForm form = .ok d) forms ds

namespace SymbolTable

variable {t u : SymbolTable}

/-! ## Functions of different names -/

theorem insertEntry_of_fresh {d : Definition} {entries : List Entry}
    (fresh : d.name ∉ entries.map (·.name)) :
    insertEntry d entries = entries ++ [⟨d, !d.isBuiltin⟩] := by
  induction entries with
  | nil => rfl
  | cons e rest ih =>
    obtain ⟨other, fresh⟩ := not_or.1 (List.mem_cons.not.1 fresh)
    rw [insertEntry_cons_other (Ne.symm other), ih fresh, List.cons_append]

/-- A function of a new name comes at the end. -/
theorem Sound.entries_insert (h : t.Sound) {d : Definition} (hd : d.IsFunction)
    (fresh : d.name ∉ t.functions.map (·.name)) :
    (t.insert d).entries = t.entries ++ [⟨d, true⟩] := by
  have new : d.name ∉ t.entries.map (·.name) := by
    intro old
    obtain ⟨e, he, same⟩ := List.mem_map.1 old
    have listed := h.listed_of_free he (same ▸ hd.free)
    rw [names_functions, ← same] at fresh
    exact fresh (List.mem_map_of_mem (List.mem_filter.2 ⟨he, listed⟩))
  rw [SymbolTable.insert, insertEntry_of_fresh new, hd.not_builtin, Bool.not_false]

theorem Sound.insertForms_of_fresh (h : t.Sound) {forms : List Node} {ds : List Definition}
    (read : Definition.Read forms ds)
    (fresh : (t.functions.map (·.name) ++ ds.map (·.name)).Nodup) :
    t.insertForms forms = .ok ⟨t.entries ++ ds.map fun d => ⟨d, true⟩⟩ := by
  induction read generalizing t with
  | nil => simp [SymbolTable.insertForms]
  | @cons form d forms ds first _ ih =>
    have function := Definition.isFunction_ofForm first
    have new : d.name ∉ t.functions.map (·.name) := fun old =>
      (List.nodup_append.1 fresh).2.2 d.name old d.name (by simp) rfl
    have entries := h.entries_insert function new
    have functions : (t.insert d).functions = t.functions ++ [d] := by
      simp [SymbolTable.functions, entries]
    simp only [SymbolTable.insertForms, first]
    rw [ih (h.insert function), entries]
    · simp
    · simpa [functions] using fresh

/-- The table of forms that define functions of different names. -/
theorem ofForms_of_distinct {forms : List Node} {ds : List Definition}
    (read : Definition.Read forms ds) (distinct : (ds.map (·.name)).Nodup) :
    ofForms forms = .ok ⟨library.entries ++ ds.map fun d => ⟨d, true⟩⟩ :=
  sound_library.insertForms_of_fresh read distinct

theorem functions_of_distinct {forms : List Node} {ds : List Definition}
    (read : Definition.Read forms ds) (distinct : (ds.map (·.name)).Nodup)
    (build : ofForms forms = .ok t) : t.functions = ds := by
  rw [ofForms_of_distinct read distinct] at build
  obtain rfl := Except.ok.inj build
  have none : library.entries.filter (·.listed) = [] := rfl
  simp [functions, none, List.filter_map, Function.comp_def]

/-- The same forms in another order make a table of the same entries. -/
theorem perm_of_distinct {forms forms' : List Node} {ds ds' : List Definition}
    (read : Definition.Read forms ds) (read' : Definition.Read forms' ds') (perm : ds.Perm ds')
    (distinct : (ds.map (·.name)).Nodup) (build : ofForms forms = .ok t)
    (build' : ofForms forms' = .ok u) : t.entries.Perm u.entries := by
  have distinct' : (ds'.map (·.name)).Nodup := (perm.map _).nodup distinct
  rw [ofForms_of_distinct read distinct] at build
  rw [ofForms_of_distinct read' distinct'] at build'
  obtain rfl := Except.ok.inj build
  obtain rfl := Except.ok.inj build'
  exact (perm.map _).append_left _

/-! ## Entries in another order -/

theorem Sound.of_perm (h : t.Sound) (perm : t.entries.Perm u.entries) : u.Sound where
  distinct := (perm.map _).nodup h.distinct
  library e he := h.library e (perm.mem_iff.2 he)
  program e he := h.program e (perm.mem_iff.2 he)

theorem Sound.get?_of_perm (h : t.Sound) (perm : t.entries.Perm u.entries) : t.get? = u.get? := by
  funext name
  apply Option.ext
  intro d
  simp only [h.get?_eq_some_iff, (h.of_perm perm).get?_eq_some_iff, perm.mem_iff]

theorem Sound.lookup_of_perm (h : t.Sound) (perm : t.entries.Perm u.entries) :
    t.lookup = u.lookup := by
  funext name
  rw [lookup, lookup, h.get?_of_perm perm]

theorem functions_perm (perm : t.entries.Perm u.entries) : t.functions.Perm u.functions :=
  (perm.filter _).map _

end SymbolTable

/-! ## Sample programs -/

namespace Sample

/-- The forms of some functions. -/
def program (ws : List Declaration) : List Node :=
  ws.map fun w => defun w.name w.params w.body

theorem ofForm_defun {w : Declaration} (small : Text.toLower w.name = w.name)
    (free : isReserved w.name = false) (distinct : w.params.Nodup) (loc : w.loc = here) :
    Definition.ofForm (defun w.name w.params w.body) = .ok w.definition := by
  obtain ⟨function, params, body, l⟩ := w
  obtain rfl : l = here := loc
  have idents : params.map name =
      (params.map fun p => (⟨p, here⟩ : Node.Written)).map fun p => .ident p.name p.loc := by
    rw [List.map_map]
    rfl
  have names : (params.map fun p => (⟨p, here⟩ : Node.Written)).map (·.name) = params := by
    simp [Function.comp_def]
  have keyword : isNamed "defun" defunWord = true := by decide +kernel
  have defines := Node.Defines.defun here here here body here keyword (small.symm ▸ free)
    (names.symm ▸ distinct)
  rw [names, small, ← idents] at defines
  exact Definition.ofForm_of_defines defines

/-- A sample program defines what it is made of. -/
theorem read_program {ws : List Declaration}
    (plain : ∀ w ∈ ws, Text.toLower w.name = w.name ∧ isReserved w.name = false ∧
      w.params.Nodup ∧ w.loc = here) :
    Definition.Read (program ws) (ws.map (·.definition)) := by
  rw [program, Definition.Read, List.forall₂_map_left_iff, List.forall₂_map_right_iff,
    List.forall₂_same]
  intro w hw
  obtain ⟨small, free, distinct, loc⟩ := plain w hw
  exact ofForm_defun small free distinct loc

end Sample

end LittleLisp
