import LittleLisp.Proofs.Inference.Stage
import LittleLisp.Proofs.ValueType.Order
import Mathlib.Algebra.GroupWithZero.Nat
import Mathlib.Algebra.Order.BigOperators.Group.List
import Mathlib.Algebra.Order.Group.Nat
import Mathlib.Data.List.Forall2

/-!
# Types of parameters

The type of a parameter is the meet of what its uses say, and a use by a function says what that
function's parameter was before the round. Results play no part in this. Parameters start as `any`
and only get narrower, and no operator of the library asks for less than `integer`, so a parameter
changes at most once. A round that changes no parameter is followed by no round that does. Hence
parameters are settled after as many rounds as the program has parameters (`params_settled`).
-/

namespace LittleLisp

/-! ## Definitions before the first round -/

/-- Nothing is known about the types of a function. -/
structure Definition.IsNew (d : Definition) : Prop where
  ret : d.ret = .nothing
  params : ∀ p ∈ d.params, p.type = .any

namespace Definition

theorem type_of_mem_paramsOf {function : String} {known : List String} {args : List Node}
    {params : List Param} (h : paramsOf function known args = .ok params) :
    ∀ p ∈ params, p.type = .any := by
  induction args generalizing known params with
  | nil =>
    obtain rfl := Except.ok.inj h
    simp
  | cons arg rest ih =>
    cases arg with
    | ident name l =>
      simp only [paramsOf] at h
      split at h
      · cases h
      · split at h
        · next later read =>
          obtain rfl := Except.ok.inj h
          exact List.forall_mem_cons.2 ⟨rfl, ih read⟩
        · cases h
    | call | int | char | str | cond => cases h

theorem isNew_ofForm {form : Node} {d : Definition} (h : ofForm form = .ok d) : d.IsNew := by
  obtain ⟨_, _, _, _, _, _, _, _, _, -, -, -, read, rfl⟩ := ofForm_eq_ok h
  exact ⟨rfl, type_of_mem_paramsOf read⟩

end Definition

namespace SymbolTable

/-- Nothing is known about the types of a program before inference. -/
theorem isNew_ofForms {forms : List Node} {t : SymbolTable} (build : ofForms forms = .ok t) :
    ∀ d ∈ t.functions, d.IsNew := by
  intro d hd
  obtain ⟨_, -, defined⟩ := exists_form_of_mem_functions build hd
  exact Definition.isNew_ofForm defined

end SymbolTable

namespace Inference

variable {t : SymbolTable}

/-! ## The meet of the uses -/

/-- The type that uses agree on is the widest that is no wider than any of them. -/
theorem le_usedAs_iff {us : List Param} {name : String} {c : ValueType} :
    c ≤ usedAs us name ↔ ∀ u ∈ us, u.name = name → c ≤ u.type := by
  have from_type (a : ValueType) :
      c ≤ us.foldl (fun type u => if u.name = name then type.sup u.type else type) a ↔
        c ≤ a ∧ ∀ u ∈ us, u.name = name → c ≤ u.type := by
    induction us generalizing a with
    | nil => simp
    | cons u us ih =>
      rw [List.foldl_cons, ih, List.forall_mem_cons]
      by_cases same : u.name = name
      · simp only [same, if_true, true_implies, ValueType.le_sup_iff, and_assoc]
      · simp only [same, if_false, false_implies, true_and]
  rw [usedAs, from_type]
  simp

/-- One list of parameters has the names of another and types that are no wider. -/
def Narrows : List Param → List Param → Prop :=
  List.Forall₂ fun p q => q.name = p.name ∧ q.type ≤ p.type

theorem usedAs_of_narrows {us vs : List Param} (h : Narrows us vs) (name : String) :
    usedAs vs name ≤ usedAs us name := by
  induction h with
  | nil => exact le_refl _
  | @cons u v us vs first _ ih =>
    have below := le_usedAs_iff.1 (le_refl (usedAs (v :: vs) name))
    obtain ⟨below_first, below_later⟩ := List.forall_mem_cons.1 below
    rw [le_usedAs_iff, List.forall_mem_cons]
    constructor
    · intro same
      exact (below_first (first.1.trans same)).trans first.2
    · rw [← le_usedAs_iff]
      exact (le_usedAs_iff.2 below_later).trans ih

theorem usesOfArgs_nil (args : List Node) : usesOfArgs args [] = [] := by
  cases args with
  | nil => rfl
  | cons arg args => cases arg <;> rfl

theorem usesOfArgs_of_narrows {ps qs : List Param} (h : Narrows ps qs) (args : List Node) :
    Narrows (usesOfArgs args ps) (usesOfArgs args qs) := by
  induction h generalizing args with
  | nil =>
    rw [usesOfArgs_nil]
    exact .nil
  | cons first _ ih =>
    cases args with
    | nil => exact .nil
    | cons arg args =>
      cases arg with
      | ident name l => exact .cons ⟨rfl, first.2⟩ (ih args)
      | call | int | char | str | cond => exact ih args

/-- A use is an argument that is an identifier, and says what the parameter of its place says. -/
theorem mem_usesOfArgs_iff {args : List Node} {params : List Param} {u : Param} :
    u ∈ usesOfArgs args params ↔
      ∃ (i : Nat) (l : Location) (p : Param), args[i]? = some (.ident u.name l) ∧
        params[i]? = some p ∧ p.type = u.type := by
  induction params generalizing args with
  | nil => simp [usesOfArgs_nil]
  | cons p params ih =>
    cases args with
    | nil => simp [usesOfArgs]
    | cons arg args =>
      -- The first place, and the places after it.
      have places : (∃ (i : Nat) (l : Location) (q : Param),
          (arg :: args)[i]? = some (.ident u.name l) ∧ (p :: params)[i]? = some q ∧
            q.type = u.type) ↔
            (∃ l, arg = .ident u.name l ∧ p.type = u.type) ∨ u ∈ usesOfArgs args params := by
        rw [ih]
        constructor
        · rintro ⟨i, l, q, harg, hparam, same⟩
          cases i with
          | zero => exact .inl ⟨l, by simpa using harg, by simp_all⟩
          | succ i => exact .inr ⟨i, l, q, by simpa using harg, by simpa using hparam, same⟩
        · rintro (⟨l, rfl, same⟩ | ⟨i, l, q, harg, hparam, same⟩)
          · exact ⟨0, l, p, by simp, by simp, same⟩
          · exact ⟨i + 1, l, q, by simpa using harg, by simpa using hparam, same⟩
      rw [places]
      cases arg with
      | ident name l =>
        rw [usesOfArgs, List.mem_cons]
        apply or_congr _ Iff.rfl
        constructor
        · rintro rfl
          exact ⟨l, rfl, rfl⟩
        · rintro ⟨l, same, type⟩
          obtain ⟨rfl, rfl⟩ := Node.ident.inj same
          exact congrArg (Param.mk u.name) type.symm
      | call | int | char | str | cond => simp [usesOfArgs]

/-! ## Parameters after some rounds -/

theorem usesOfNode_iterate (h : t.Sound) (n : Nat) (m : Node) :
    usesOfNode (round^[n] t) m =
      (m.callee? t).elim [] fun d => usesOfArgs m.args (stage t n d).params := by
  rw [usesOfNode_eq, callee?_iterate h]
  cases m.callee? t with
  | none => rfl
  | some d => rfl

theorem params_stage_succ (t : SymbolTable) (n : Nat) {d : Definition} {body : Node}
    (written : d.body = some body) :
    (stage t (n + 1) d).params = refineParams (round^[n] t) body d.params := by
  rw [stage_succ, refine]
  simp only [written]

theorem names_stage (t : SymbolTable) (n : Nat) (d : Definition) :
    (stage t n d).params.map (·.name) = d.params.map (·.name) := by
  cases n with
  | zero => rfl
  | succ n => exact refine_params _ d

/-- What a tree calls is a function of the program or an operator of the library. -/
theorem callee_cases (h : t.Sound) {m : Node} {d : Definition} (found : m.callee? t = some d) :
    d ∈ t.functions ∨ ∃ op ∈ Builtin.library, d = Definition.ofBuiltin op := by
  unfold Node.callee? at found
  split at found
  · cases builtin : d.isBuiltin with
    | true => exact .inr (h.operator_of_lookup found builtin)
    | false => exact .inl (h.mem_functions_of_lookup found builtin)
  · cases found

theorem stage_ofBuiltin (t : SymbolTable) (n : Nat) (op : Builtin) :
    stage t n (Definition.ofBuiltin op) = Definition.ofBuiltin op :=
  stage_of_isBuiltin t n rfl

theorem narrows_refl (ps : List Param) : Narrows ps ps :=
  List.forall₂_same.2 fun _ _ => ⟨rfl, le_refl _⟩

/-- What a body says about identifiers gets narrower when the parameters of functions do. -/
theorem uses_of_narrows (h : t.Sound) {n m : Nat}
    (each : ∀ d ∈ t.functions, Narrows (stage t n d).params (stage t m d).params) (body : Node) :
    Narrows (uses (round^[n] t) body) (uses (round^[m] t) body) := by
  apply List.rel_flatMap (List.forall₂_same.2 fun _ _ => rfl)
  rintro x _ rfl
  rw [usesOfNode_iterate h, usesOfNode_iterate h]
  cases found : x.callee? t with
  | none => exact .nil
  | some d =>
    apply usesOfArgs_of_narrows
    rcases callee_cases h found with hd | ⟨op, -, rfl⟩
    · exact each d hd
    · rw [stage_ofBuiltin, stage_ofBuiltin]
      exact narrows_refl _

/-- Types of parameters only get narrower. -/
theorem narrows_stage (h : t.Sound) (new : ∀ d ∈ t.functions, d.IsNew) (n : Nat) :
    ∀ d ∈ t.functions, Narrows (stage t n d).params (stage t (n + 1) d).params := by
  induction n with
  | zero =>
    intro d hd
    obtain ⟨body, written⟩ := Option.isSome_iff_exists.1 (h.isFunction hd).body
    rw [params_stage_succ t 0 written, refineParams, Narrows, List.forall₂_map_right_iff]
    apply List.forall₂_same.2
    intro p hp
    rw [(new d hd).params p hp]
    exact ⟨rfl, ValueType.le_any _⟩
  | succ n ih =>
    intro d hd
    obtain ⟨body, written⟩ := Option.isSome_iff_exists.1 (h.isFunction hd).body
    rw [params_stage_succ t n written, params_stage_succ t (n + 1) written, refineParams,
      refineParams, Narrows, List.forall₂_map_left_iff, List.forall₂_map_right_iff]
    apply List.forall₂_same.2
    intro p _
    exact ⟨rfl, usedAs_of_narrows (uses_of_narrows h ih body) p.name⟩

theorem integer_le_of_builtin {op : Builtin} (h : op ∈ Builtin.library) :
    ∀ p ∈ (Definition.ofBuiltin op).params, .integer ≤ p.type := by
  revert op
  decide

/-- No parameter gets narrower than `integer`, because no operator asks for less. -/
theorem integer_le_stage (h : t.Sound) (new : ∀ d ∈ t.functions, d.IsNew) (n : Nat) :
    ∀ d ∈ t.functions, ∀ p ∈ (stage t n d).params, .integer ≤ p.type := by
  induction n with
  | zero =>
    intro d hd p hp
    rw [(new d hd).params p hp]
    exact ValueType.le_any _
  | succ n ih =>
    intro d hd p hp
    obtain ⟨body, written⟩ := Option.isSome_iff_exists.1 (h.isFunction hd).body
    rw [params_stage_succ t n written] at hp
    obtain ⟨q, -, rfl⟩ := List.mem_map.1 hp
    apply le_usedAs_iff.2
    intro u hu _
    obtain ⟨m, -, hu⟩ := List.mem_flatMap.1 hu
    rw [usesOfNode_iterate h] at hu
    cases found : m.callee? t with
    | none =>
      rw [found] at hu
      cases hu
    | some e =>
      rw [found] at hu
      obtain ⟨_, _, r, -, at_, same⟩ := mem_usesOfArgs_iff.1 hu
      have hr := List.mem_of_getElem? at_
      rw [← same]
      rcases callee_cases h found with he | ⟨op, hop, rfl⟩
      · exact ih e he r hr
      · rw [stage_ofBuiltin] at hr
        exact integer_le_of_builtin hop r hr

/-- The uses of a parameter never clash: it is an integer, or it may be anything. -/
theorem type_of_mem_stage (h : t.Sound) (new : ∀ d ∈ t.functions, d.IsNew) (n : Nat)
    {d : Definition} (hd : d ∈ t.functions) {p : Param} (hp : p ∈ (stage t n d).params) :
    p.type = .any ∨ p.type = .integer := by
  rcases ValueType.le_iff.1 (integer_le_stage h new n d hd p hp) with any | integer | clash
  · exact .inl any
  · exact .inr integer.symm
  · cases clash

/-! ## Settled parameters -/

/-- A round after `n` rounds changes no parameter. -/
def ParamsSettled (t : SymbolTable) (n : Nat) : Prop :=
  ∀ d ∈ t.functions, (stage t (n + 1) d).params = (stage t n d).params

/-- Parameters that a round does not change are not changed by the next round. -/
theorem ParamsSettled.succ (h : t.Sound) {n : Nat} (settled : ParamsSettled t n) :
    ParamsSettled t (n + 1) := by
  intro d hd
  obtain ⟨body, written⟩ := Option.isSome_iff_exists.1 (h.isFunction hd).body
  rw [params_stage_succ t n written, params_stage_succ t (n + 1) written, refineParams, refineParams]
  have same : uses (round^[n + 1] t) body = uses (round^[n] t) body := by
    apply uses_congr
    intro m _
    rw [callee?_iterate h, callee?_iterate h]
    cases found : m.callee? t with
    | none => rfl
    | some e =>
      rcases callee_cases h found with he | ⟨op, -, rfl⟩
      · simp [settled e he]
      · simp [stage_ofBuiltin]
  rw [same]

theorem ParamsSettled.of_le (h : t.Sound) {n m : Nat} (settled : ParamsSettled t n) (le : n ≤ m) :
    ParamsSettled t m := by
  induction m, le using Nat.le_induction with
  | base => exact settled
  | succ m _ ih => exact ih.succ h

/-- Settled parameters are the same in all later rounds. -/
theorem params_stage_eq {n m : Nat} (settled : ∀ k, n ≤ k → ParamsSettled t k) (le : n ≤ m)
    {d : Definition} (hd : d ∈ t.functions) : (stage t m d).params = (stage t n d).params := by
  induction m, le using Nat.le_induction with
  | base => rfl
  | succ m le ih => rw [settled m le d hd, ih]

/-- How many parameters are known to be integers. -/
def numeric (params : List Param) : Nat :=
  params.countP fun p => p.type == .integer

/-- Parameters that change become integers, so that there are more of these. -/
theorem numeric_of_narrows {ps qs : List Param} (h : Narrows ps qs)
    (wide : ∀ q ∈ qs, .integer ≤ q.type) :
    numeric ps ≤ numeric qs ∧ (numeric ps = numeric qs → qs = ps) := by
  have between {a b : ValueType} : .integer ≤ a → a ≤ b → a = b ∨ a = .integer ∧ b = .any := by
    cases a <;> cases b <;> decide
  induction h with
  | nil => exact ⟨le_refl _, fun _ => rfl⟩
  | @cons p q ps qs first _ ih =>
    obtain ⟨wide_first, wide_later⟩ := List.forall_mem_cons.1 wide
    obtain ⟨le, eq⟩ := ih wide_later
    obtain ⟨same, narrow⟩ := first
    rcases between wide_first narrow with type | ⟨new, old⟩
    · obtain rfl : q = p := congr (congrArg Param.mk same) type
      simp only [numeric, List.countP_cons] at le eq ⊢
      refine ⟨by omega, fun counts => ?_⟩
      rw [eq (by omega)]
    · have more : numeric (q :: qs) = numeric qs + 1 := List.countP_cons_of_pos (by simp [new])
      have before : numeric (p :: ps) = numeric ps := List.countP_cons_of_neg (by simp [old])
      constructor
      · omega
      · intro counts
        omega

/-- How many parameters of the program are known to be integers after some rounds. -/
def numericAfter (t : SymbolTable) (n : Nat) : Nat :=
  (t.functions.map fun d => numeric (stage t n d).params).sum

theorem numericAfter_lt (h : t.Sound) (new : ∀ d ∈ t.functions, d.IsNew) {n : Nat}
    (moves : ¬ ParamsSettled t n) : numericAfter t n < numericAfter t (n + 1) := by
  have each (d : Definition) (hd : d ∈ t.functions) :=
    numeric_of_narrows (narrows_stage h new n d hd) (integer_le_stage h new (n + 1) d hd)
  simp only [ParamsSettled, not_forall] at moves
  obtain ⟨d, hd, changes⟩ := moves
  apply List.sum_lt_sum
  · exact fun e he => (each e he).1
  · exact ⟨d, hd, lt_of_le_of_ne (each d hd).1 (mt (each d hd).2 changes)⟩

end Inference

/-- How many parameters the functions of a program have in total. -/
def SymbolTable.paramCount (t : SymbolTable) : Nat :=
  (t.functions.map (·.params.length)).sum

namespace Inference

variable {t : SymbolTable}

theorem numericAfter_le (t : SymbolTable) (n : Nat) : numericAfter t n ≤ t.paramCount := by
  apply List.sum_le_sum
  intro d _
  have length : (stage t n d).params.length = d.params.length := by
    simpa using congrArg List.length (names_stage t n d)
  rw [← length]
  exact List.countP_le_length

/-- Parameters are settled after as many rounds as the program has parameters: until they are, every
round makes one of them an integer for good. -/
theorem params_settled (h : t.Sound) (new : ∀ d ∈ t.functions, d.IsNew) {n : Nat}
    (late : t.paramCount ≤ n) : ParamsSettled t n := by
  by_contra moves
  have counted : ∀ m, m ≤ n + 1 → m ≤ numericAfter t m := by
    intro m
    induction m with
    | zero => omega
    | succ m ih =>
      intro hm
      have moves_before : ¬ ParamsSettled t m := fun settled => moves (settled.of_le h (by omega))
      have grows := numericAfter_lt h new moves_before
      have := ih (by omega)
      omega
  have many := counted (n + 1) (Nat.le_refl _)
  have few := numericAfter_le t (n + 1)
  omega

end Inference

end LittleLisp
