import LittleLisp.Proofs.Inference.Results

/-!
# Types that inference finds

The types that there are to be found in a program are those of its constants and those that the
library declares. The library asks for integers and gives integers, or does not say. So a parameter is
an integer or may be anything, and its uses never clash. A result is never a list, because a join of
types is a list only if one of them is.
-/

namespace LittleLisp

namespace SymbolTable

/-- What the types of the functions of a program can be. -/
structure InRange (t : SymbolTable) : Prop where
  params : ∀ d ∈ t.functions, ∀ p ∈ d.params, p.type = .any ∨ p.type = .integer
  ret : ∀ d ∈ t.functions, d.ret ≠ .list

end SymbolTable

namespace Inference

variable {t : SymbolTable}

theorem param_of_library : ∀ op ∈ Builtin.library, ∀ p ∈ (Definition.ofBuiltin op).params,
    p.type = .any ∨ p.type = .integer := by
  decide

theorem ret_ne_list_of_library : ∀ op ∈ Builtin.library, (Definition.ofBuiltin op).ret ≠ .list := by
  decide

/-- No result of a function says that it is a list, if no function's result was a list before. -/
theorem resultAt_ne_list (h : t.Sound) (new : ∀ d ∈ t.functions, d.IsNew) {n : Nat}
    (before : ∀ e ∈ t.functions, (stage t n e).ret ≠ .list) {d : Definition} (hd : d ∈ t.functions)
    (m : Node) : resultAt t n d m ≠ .list := by
  cases callee : m.callee? t with
  | some e =>
    rw [resultAt_of_callee h n d callee]
    rcases callee_cases h callee with he | ⟨op, hop, rfl⟩
    · exact before e he
    · rw [stage_ofBuiltin]
      exact ret_ne_list_of_library op hop
  | none =>
    intro list
    have own := resultAt_of_callee?_eq_none h new n hd callee
    rw [list] at own
    exact absurd own (by decide)

theorem ret_ne_list (h : t.Sound) (new : ∀ d ∈ t.functions, d.IsNew) (n : Nat) :
    ∀ d ∈ t.functions, (stage t n d).ret ≠ .list := by
  induction n with
  | zero =>
    intro d hd
    simp [(new d hd).ret]
  | succ n ih =>
    intro d hd list
    obtain ⟨body, written⟩ := Option.isSome_iff_exists.1 (h.isFunction hd).body
    -- What is no wider than a list and no list itself is `nothing`, and so is the join of such types.
    have below := (ret_le_iff h n written).1 list.le
    have none : (stage t (n + 1) d).ret ≤ .nothing := by
      apply (ret_le_iff h n written).2
      intro m hm
      rcases ValueType.le_iff.1 (below m hm) with any | same | none
      · cases any
      · exact absurd same (resultAt_ne_list h new ih hd m)
      · exact none.le
    rw [list] at none
    exact absurd none (by decide)

theorem inRange_iterate {forms : List Node} (build : SymbolTable.ofForms forms = .ok t) (n : Nat) :
    (round^[n] t).InRange := by
  have sound := SymbolTable.sound_ofForms build
  have new := SymbolTable.isNew_ofForms build
  constructor
  · intro f hf p hp
    rw [functions_iterate sound] at hf
    obtain ⟨d, hd, rfl⟩ := List.mem_map.1 hf
    exact type_of_mem_stage sound new n hd hp
  · intro f hf
    rw [functions_iterate sound] at hf
    obtain ⟨d, hd, rfl⟩ := List.mem_map.1 hf
    exact ret_ne_list sound new n d hd

theorem inRange_infer {forms : List Node} (build : SymbolTable.ofForms forms = .ok t) (max : Int) :
    (infer t max).table.InRange := by
  rw [infer, table_run (SymbolTable.sound_ofForms build)]
  exact inRange_iterate build _

end Inference

namespace SymbolTable

variable {t : SymbolTable}

/-- What is in the range for functions is so for everything that can be called. -/
theorem InRange.of_callee? (range : t.InRange) (h : t.Sound) {n : Node} {g : Definition}
    (callee : n.callee? t = some g) :
    (∀ p ∈ g.params, p.type = .any ∨ p.type = .integer) ∧ g.ret ≠ .list := by
  rcases Inference.callee_cases h callee with hg | ⟨op, hop, rfl⟩
  · exact ⟨range.params g hg, range.ret g hg⟩
  · exact ⟨Inference.param_of_library op hop, Inference.ret_ne_list_of_library op hop⟩

end SymbolTable

end LittleLisp
