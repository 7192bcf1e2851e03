import LittleLisp.Proofs.Inference.Params

/-!
# Where the type of a parameter comes from

A parameter of a function that stands as an argument of a call anywhere in the function's body is
handed on to the parameter of the callee in that place. This makes a graph of all parameters, those
of library operators included, which have declared types and hand nothing on.

A round tells a parameter what the parameters that it is handed on to have been told before
(`le_type_succ_iff`). So after `n` rounds a parameter has the types that are declared at the ends of
all ways of at most `n` steps through the graph, put together (`type_eq_supAll_declared`). The graph
does not mention results, and neither does what is said about parameters.
-/

namespace LittleLisp

/-! ## Places in a tree -/

namespace Node

/-- A tree is another one, or stands somewhere in it: as a member of a form, the head included, or
in a clause. -/
inductive Inside (m : Node) : Node → Prop where
  | self : Inside m m
  | member {n : Node} {members : List Node} {l : Location} (hn : n ∈ members)
    (within : Inside m n) : Inside m (.call members l)
  | condition {c : Node × Node} {clauses : List (Node × Node)} {l : Location} (hc : c ∈ clauses)
    (within : Inside m c.1) : Inside m (.cond clauses l)
  | result {c : Node × Node} {clauses : List (Node × Node)} {l : Location} (hc : c ∈ clauses)
    (within : Inside m c.2) : Inside m (.cond clauses l)

theorem exists_clause_of_mem_walkClauses {m : Node} {clauses : List (Node × Node)}
    (h : m ∈ walkClauses clauses) : ∃ c ∈ clauses, m ∈ c.1.walk ∨ m ∈ c.2.walk := by
  induction clauses with
  | nil => cases h
  | cons c rest ih =>
    simp only [walkClauses, List.mem_append] at h
    rcases h with h | h | h
    · exact ⟨c, by simp, .inl h⟩
    · exact ⟨c, by simp, .inr h⟩
    · obtain ⟨d, hd, hm⟩ := ih h
      exact ⟨d, List.mem_cons_of_mem _ hd, hm⟩

theorem Inside.of_mem_walk {n m : Node} (h : m ∈ n.walk) : m.Inside n := by
  induction n using Node.induction with
  | int | char | str | ident =>
    simp only [walk, List.mem_singleton] at h
    exact h ▸ .self
  | call members l ih =>
    simp only [walk, walkAll_eq, List.mem_cons, List.mem_flatMap] at h
    rcases h with rfl | ⟨n, hn, hm⟩
    · exact .self
    · exact .member hn (ih n hn hm)
  | cond clauses l ih =>
    simp only [walk, List.mem_cons] at h
    rcases h with rfl | h
    · exact .self
    · obtain ⟨c, hc, hm | hm⟩ := exists_clause_of_mem_walkClauses h
      · exact .condition hc ((ih c hc).1 hm)
      · exact .result hc ((ih c hc).2 hm)

/-- The walk comes to everything that stands in a tree, and to nothing else. -/
theorem mem_walk_iff {n m : Node} : m ∈ n.walk ↔ m.Inside n := by
  constructor
  · exact .of_mem_walk
  · intro inside
    induction inside with
    | self => exact self_mem_walk m
    | member hn _ ih => exact mem_walk_call _ hn ih
    | condition hc _ ih => exact mem_walk_cond _ hc (.inl ih)
    | result hc _ ih => exact mem_walk_cond _ hc (.inr ih)

end Node

/-! ## The graph of parameters -/

/-- A parameter, by the name of its function and its place among the parameters. -/
structure Slot where
  function : String
  place : Nat
deriving DecidableEq, Repr

/-- A library operator declares a type for a parameter. -/
def Slot.Declares (s : Slot) (type : ValueType) : Prop :=
  ∃ op ∈ Builtin.library, op.name = s.function ∧ op.paramTypes[s.place]? = some type

namespace SymbolTable

variable {t : SymbolTable}

/-- The parameter in a place. -/
def param? (t : SymbolTable) (s : Slot) : Option Param :=
  (t.get? s.function).bind fun d => d.params[s.place]?

/-- A parameter belongs to a function of the program. -/
def IsParam (t : SymbolTable) (s : Slot) : Prop :=
  ∃ d ∈ t.functions, d.name = s.function ∧ s.place < d.params.length

/-- Parameter `i` of the function `d` stands as argument `j` of a call of `g`, anywhere in the body
of `d`, and `g` has a parameter there. -/
inductive HandsOn (t : SymbolTable) : Slot → Slot → Prop where
  | use {d g : Definition} {body m : Node} {p q : Param} {i j : Nat} {l : Location}
    (function : d ∈ t.functions) (written : d.body = some body) (param : d.params[i]? = some p)
    (call : m.Inside body) (callee : m.callee? t = some g)
    (argument : m.args[j]? = some (.ident p.name l)) (fits : g.params[j]? = some q) :
    HandsOn t ⟨d.name, i⟩ ⟨g.name, j⟩

/-- One parameter is handed on to another in so many steps. -/
inductive LeadsIn (t : SymbolTable) : Nat → Slot → Slot → Prop where
  | refl (s : Slot) : LeadsIn t 0 s s
  | step {n : Nat} {s q r : Slot} (first : t.HandsOn s q) (later : LeadsIn t n q r) :
    LeadsIn t (n + 1) s r

theorem Sound.get?_of_callee? (h : t.Sound) {m : Node} {g : Definition}
    (callee : m.callee? t = some g) : t.get? g.name = some g := by
  unfold Node.callee? at callee
  split at callee
  · obtain ⟨e, he, rfl, -⟩ := lookup_eq_some callee
    exact h.get?_of_mem he
  · cases callee

/-- No type is declared for a parameter of a function of the program. -/
theorem IsParam.not_declares (h : t.Sound) {s : Slot} (hs : t.IsParam s) {type : ValueType} :
    ¬ s.Declares type := by
  rintro ⟨op, hop, name, -⟩
  obtain ⟨d, hd, same, -⟩ := hs
  exact h.name_ne_of_library hd hop (name.trans same.symm)

theorem HandsOn.isParam {s q : Slot} (h : t.HandsOn s q) : t.IsParam s := by
  obtain ⟨hd, -, param, -⟩ := h
  exact ⟨_, hd, rfl, (List.getElem?_eq_some_iff.1 param).1⟩

/-- What a parameter of a given function is handed on to. -/
theorem handsOn_iff (h : t.Sound) {d : Definition} (hd : d ∈ t.functions) {body : Node}
    (written : d.body = some body) {i : Nat} {p : Param} (param : d.params[i]? = some p) {q : Slot} :
    t.HandsOn ⟨d.name, i⟩ q ↔
      ∃ (m : Node) (g : Definition) (l : Location), m.Inside body ∧ m.callee? t = some g ∧
        m.args[q.place]? = some (.ident p.name l) ∧ g.name = q.function ∧
          q.place < g.params.length := by
  constructor
  · intro edge
    generalize source : (⟨d.name, i⟩ : Slot) = s at edge
    obtain ⟨function, written', param', inside, callee, argument, fits⟩ := edge
    obtain ⟨name, rfl⟩ := Slot.mk.inj source
    -- Functions have distinct names, so this is the same function.
    obtain rfl := List.inj_on_of_nodup_map h.nodup_functions hd function name
    obtain rfl := Option.some.inj (written.symm.trans written')
    obtain rfl := Option.some.inj (param.symm.trans param')
    exact ⟨_, _, _, inside, callee, argument, rfl, (List.getElem?_eq_some_iff.1 fits).1⟩
  · obtain ⟨function, place⟩ := q
    rintro ⟨m, g, l, inside, callee, argument, rfl, bound⟩
    exact .use hd written param inside callee argument (List.getElem?_eq_getElem bound)

end SymbolTable

namespace Inference

variable {t : SymbolTable}

/-! ## The type of a parameter after some rounds -/

/-- The type of a parameter after so many rounds. -/
def typeAfter (t : SymbolTable) (n : Nat) (s : Slot) : Option ValueType :=
  ((round^[n] t).param? s).map (·.type)

theorem typeAfter_eq (h : t.Sound) (n : Nat) {name : String} {d : Definition}
    (known : t.get? name = some d) (i : Nat) :
    typeAfter t n ⟨name, i⟩ = ((stage t n d).params[i]?).map (·.type) := by
  rw [typeAfter, SymbolTable.param?, get?_iterate h, known]
  rfl

theorem name_injective_library : ∀ op ∈ Builtin.library, ∀ other ∈ Builtin.library,
    op.name = other.name → op = other := by
  decide

/-- A type that is declared for a parameter that another is handed on to is the type of that
parameter in every round. -/
theorem typeAfter_of_declares (h : t.Sound) {s q : Slot} (edge : t.HandsOn s q) {c : ValueType}
    (declared : q.Declares c) (n : Nat) : typeAfter t n q = some c := by
  obtain ⟨op, hop, name, type⟩ := declared
  obtain ⟨-, -, -, -, callee, -, fits⟩ := edge
  rw [typeAfter_eq h n (h.get?_of_callee? callee)]
  rcases callee_cases h callee with hg | ⟨other, hother, rfl⟩
  · exact absurd name (h.name_ne_of_library hg hop)
  · obtain rfl := name_injective_library op hop other hother name
    rw [stage_ofBuiltin]
    simpa [Definition.ofBuiltin] using type

/-- A parameter is handed on to one of a function, or to one for which a type is declared. -/
theorem isParam_or_declares (h : t.Sound) {s q : Slot} (edge : t.HandsOn s q) :
    t.IsParam q ∨ ∃ c, q.Declares c := by
  obtain ⟨-, -, -, -, callee, -, fits⟩ := edge
  rcases callee_cases h callee with hg | ⟨op, hop, rfl⟩
  · exact .inl ⟨_, hg, rfl, (List.getElem?_eq_some_iff.1 fits).1⟩
  · right
    simp only [Definition.ofBuiltin, List.getElem?_mapIdx, Option.map_eq_some_iff] at fits
    obtain ⟨c, type, -⟩ := fits
    exact ⟨c, op, hop, rfl, type⟩

/-! ## One round -/

/-- What a body says about a name in the round after `n` rounds is what is known, after `n` rounds,
about the parameters to which the name is handed on. -/
theorem mem_uses_iff (h : t.Sound) (n : Nat) {body : Node} {u : Param} :
    u ∈ uses (round^[n] t) body ↔
      ∃ (m : Node) (g : Definition) (j : Nat) (l : Location), m.Inside body ∧
        m.callee? t = some g ∧ m.args[j]? = some (.ident u.name l) ∧
          typeAfter t n ⟨g.name, j⟩ = some u.type := by
  simp only [uses, List.mem_flatMap, Node.mem_walk_iff, usesOfNode_iterate h]
  constructor
  · rintro ⟨m, inside, hu⟩
    cases callee : m.callee? t with
    | none =>
      rw [callee] at hu
      cases hu
    | some g =>
      rw [callee] at hu
      obtain ⟨j, l, q, argument, fits, type⟩ := mem_usesOfArgs_iff.1 hu
      refine ⟨m, g, j, l, inside, callee, argument, ?_⟩
      rw [typeAfter_eq h n (h.get?_of_callee? callee), fits, Option.map_some, type]
  · rintro ⟨m, g, j, l, inside, callee, argument, type⟩
    rw [typeAfter_eq h n (h.get?_of_callee? callee)] at type
    obtain ⟨q, fits, type⟩ := Option.map_eq_some_iff.1 type
    refine ⟨m, inside, ?_⟩
    rw [callee]
    exact mem_usesOfArgs_iff.2 ⟨j, l, q, argument, fits, type⟩

/-- A round gives a parameter the widest type that is no wider than the types that the parameters to
which it is handed on had before. -/
theorem le_type_succ_iff (h : t.Sound) (n : Nat) {s : Slot} (hs : t.IsParam s) :
    ∃ type, typeAfter t (n + 1) s = some type ∧
      ∀ c, c ≤ type ↔ ∀ q, t.HandsOn s q → ∀ old, typeAfter t n q = some old → c ≤ old := by
  obtain ⟨name, i⟩ := s
  obtain ⟨d, hd, rfl, bound⟩ := hs
  obtain ⟨body, written⟩ := Option.isSome_iff_exists.1 (h.isFunction hd).body
  obtain ⟨p, param⟩ : ∃ p, d.params[i]? = some p := ⟨_, List.getElem?_eq_getElem bound⟩
  refine ⟨usedAs (uses (round^[n] t) body) p.name, ?_, ?_⟩
  · rw [typeAfter_eq h _ (h.get?_of_mem_functions hd), params_stage_succ t n written, refineParams]
    simp [param]
  · intro c
    rw [le_usedAs_iff]
    constructor
    · intro all q edge old type
      obtain ⟨m, g, l, inside, callee, argument, name, -⟩ :=
        (SymbolTable.handsOn_iff h hd written param).1 edge
      refine all ⟨p.name, old⟩ ?_ rfl
      refine (mem_uses_iff h n).2 ⟨m, g, q.place, l, inside, callee, argument, ?_⟩
      rw [name]
      exact type
    · intro all u hu same
      obtain ⟨m, g, j, l, inside, callee, argument, type⟩ := (mem_uses_iff h n).1 hu
      refine all ⟨g.name, j⟩ ?_ u.type type
      refine (SymbolTable.handsOn_iff h hd written param).2 ⟨m, g, l, inside, callee, ?_, rfl, ?_⟩
      · rw [← same]
        exact argument
      · rw [typeAfter_eq h n (h.get?_of_callee? callee)] at type
        obtain ⟨q, fits, -⟩ := Option.map_eq_some_iff.1 type
        have bound := (List.getElem?_eq_some_iff.1 fits).1
        have length : (stage t n g).params.length = g.params.length := by
          simpa using congrArg List.length (names_stage t n g)
        exact length ▸ bound

/-! ## Many rounds -/

/-- After `n` rounds a parameter has the widest type that is no wider than those declared at the ends
of ways of at most `n` steps. -/
theorem le_type_iff (h : t.Sound) (new : ∀ d ∈ t.functions, d.IsNew) (n : Nat) {s : Slot}
    (hs : t.IsParam s) :
    ∃ type, typeAfter t n s = some type ∧
      ∀ c, c ≤ type ↔ ∀ k ≤ n, ∀ q, t.LeadsIn k s q → ∀ a, q.Declares a → c ≤ a := by
  induction n generalizing s with
  | zero =>
    obtain ⟨name, i⟩ := s
    obtain ⟨d, hd, rfl, bound⟩ := id hs
    refine ⟨.any, ?_, ?_⟩
    · rw [typeAfter_eq h 0 (h.get?_of_mem_functions hd), stage_zero,
        List.getElem?_eq_getElem bound, Option.map_some, (new d hd).params _ (List.getElem_mem bound)]
    · intro c
      refine iff_of_true (ValueType.le_any c) ?_
      rintro k hk q (_ | _) a declared
      · exact absurd declared (hs.not_declares h)
      · omega
  | succ n ih =>
    obtain ⟨type, after, below⟩ := le_type_succ_iff h n hs
    refine ⟨type, after, ?_⟩
    intro c
    rw [below]
    constructor
    · intro all k hk r way a declared
      cases way with
      | refl => exact absurd declared (hs.not_declares h)
      | @step k _ q _ first later =>
        rcases isParam_or_declares h first with hq | ⟨b, is_declared⟩
        · obtain ⟨old, before, wide⟩ := ih hq
          exact (wide c).1 (all q first old before) k (by omega) r later a declared
        · -- Operators hand nothing on, so the way ends here.
          cases later with
          | refl => exact all _ first a (typeAfter_of_declares h first declared n)
          | step next _ => exact absurd is_declared (next.isParam.not_declares h)
    · intro all q edge old before
      rcases isParam_or_declares h edge with hq | ⟨b, is_declared⟩
      · obtain ⟨same, before', wide⟩ := ih hq
        obtain rfl := Option.some.inj (before.symm.trans before')
        apply (wide c).2
        intro k hk r later a declared
        exact all (k + 1) (by omega) r (.step edge later) a declared
      · obtain rfl := Option.some.inj (before.symm.trans (typeAfter_of_declares h edge is_declared n))
        exact all 1 (by omega) q (.step edge (.refl q)) _ is_declared

/-- What inference finds out about a parameter. After `n` rounds its type is what the types say
together that are declared at the ends of all ways of at most `n` steps. A round leaves the type as it
is, gives it to a parameter that had none, or finds a clash. After as many rounds as the program has
parameters no type of a parameter changes any more. -/
theorem type_eq_supAll_declared {forms : List Node} (build : SymbolTable.ofForms forms = .ok t)
    {s : Slot} (hs : t.IsParam s) :
    (∀ n, ∃ types : List ValueType,
      (∀ c, c ∈ types ↔ ∃ k ≤ n, ∃ q, t.LeadsIn k s q ∧ q.Declares c) ∧
        typeAfter t n s = some (ValueType.supAll types)) ∧
    (∀ n, ∃ before after, typeAfter t n s = some before ∧ typeAfter t (n + 1) s = some after ∧
      (before = .any ∨ after = before ∨ after = .nothing)) ∧
    ∀ n, t.paramCount ≤ n → typeAfter t n s = typeAfter t t.paramCount s := by
  have sound := SymbolTable.sound_ofForms build
  have new := SymbolTable.isNew_ofForms build
  refine ⟨?_, ?_, ?_⟩
  · intro n
    classical
    obtain ⟨type, after, wide⟩ := le_type_iff sound new n hs
    let types := ValueType.all.filter fun c => ∃ k ≤ n, ∃ q, t.LeadsIn k s q ∧ q.Declares c
    have mem_types (c : ValueType) :
        c ∈ types ↔ ∃ k ≤ n, ∃ q, t.LeadsIn k s q ∧ q.Declares c := by
      simp [types, ValueType.mem_all]
    refine ⟨types, mem_types, ?_⟩
    rw [after, Option.some.injEq]
    apply eq_of_forall_le_iff
    intro c
    rw [wide, ValueType.le_supAll_iff]
    constructor
    · intro all a ha
      obtain ⟨k, hk, q, way, declared⟩ := (mem_types a).1 ha
      exact all k hk q way a declared
    · intro all k hk q way a declared
      exact all a ((mem_types a).2 ⟨k, hk, q, way, declared⟩)
  · intro n
    obtain ⟨before, h_before, wide_before⟩ := le_type_iff sound new n hs
    obtain ⟨after, h_after, wide_after⟩ := le_type_iff sound new (n + 1) hs
    refine ⟨before, after, h_before, h_after, ?_⟩
    have narrower : after ≤ before := by
      apply (wide_before after).2
      intro k hk
      exact (wide_after after).1 (le_refl after) k (by omega)
    exact ValueType.le_iff.1 narrower
  · intro n late
    obtain ⟨name, i⟩ := s
    obtain ⟨d, hd, rfl, -⟩ := hs
    have settled (k : Nat) (hk : t.paramCount ≤ k) : ParamsSettled t k :=
      params_settled sound new hk
    have known := sound.get?_of_mem_functions hd
    rw [typeAfter_eq sound n known, typeAfter_eq sound _ known, params_stage_eq settled late hd]

open Sample

/-- Two functions: one calls itself with its parameters in the other order and hands the second one
to the other function, which adds to it. -/
def pingForms : List Node :=
  [defun "ping" ["a", "b"] (.cond
     [(form [name "pong", name "b"], form [name "ping", name "b", name "a"]),
      (name "T", name "a")] here),
   defun "pong" ["x"] (form [name "+", name "x", .int 1 here])]

/-- The first parameter is three steps away from the addition, so it takes three rounds. -/
theorem type_eq_supAll_declared_ping : ∃ t, SymbolTable.ofForms pingForms = .ok t ∧
    t.IsParam ⟨"ping", 0⟩ ∧ t.paramCount = 3 ∧ typeAfter t 2 ⟨"ping", 0⟩ = some .any ∧
      (∃ types : List ValueType,
        (∀ c, c ∈ types ↔ ∃ k ≤ 3, ∃ q, t.LeadsIn k ⟨"ping", 0⟩ q ∧ q.Declares c) ∧
          ValueType.supAll types = .integer) ∧
      ∀ n, 3 ≤ n → typeAfter t n ⟨"ping", 0⟩ = some .integer := by
  obtain ⟨t, build, checked⟩ : ∃ t, SymbolTable.ofForms pingForms = .ok t ∧
      (t.functions.any (fun d => d.name == "ping" && decide (0 < d.params.length)), t.paramCount,
        typeAfter t 2 ⟨"ping", 0⟩, typeAfter t 3 ⟨"ping", 0⟩) =
          (true, 3, some .any, some .integer) :=
    exists_eq_ok (by decide +kernel)
  simp only [Prod.mk.injEq, List.any_eq_true, Bool.and_eq_true, beq_iff_eq,
    decide_eq_true_eq] at checked
  obtain ⟨found, count, two, three⟩ := checked
  have param : t.IsParam ⟨"ping", 0⟩ := found
  obtain ⟨closed, -, settled⟩ := type_eq_supAll_declared build param
  obtain ⟨types, declared, after⟩ := closed 3
  refine ⟨t, build, param, count, two, ⟨types, declared, ?_⟩, ?_⟩
  · exact Option.some.inj (after.symm.trans three)
  · intro n late
    rw [settled n (count ▸ late), count, three]

end Inference

end LittleLisp
