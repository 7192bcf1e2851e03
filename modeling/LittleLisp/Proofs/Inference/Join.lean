import LittleLisp.Proofs.Inference.Locality
import LittleLisp.Proofs.Inference.Results

/-!
# The order of results

The type of an expression is put together while its tree is walked, clause after clause and branch
after branch, at every depth. What comes out is the join of the types of all its results at once
(`derive_eq_infAll`), and a join does not see the order of what it joins or how often it comes. So
the clauses of a conditional may be put in any order and written again, and the branches of a choice
may change places, anywhere in the tree (`derive_of_rearranges`).
-/

namespace LittleLisp

namespace Node

/-- The types of the results of a tree in the body of `d`. -/
def resultTypes (t : SymbolTable) (d : Definition) (n : Node) : List ValueType :=
  (n.results t).map (ownType t d)

/-- The name that a tree is, if it is one. -/
def word? : Node → Option String
  | .ident name _ => some name
  | _ => none

/-- One change in a tree, at any depth: the branches of a choice change places, the clauses of a
conditional come in another order, or one of them comes once more. What is moved in a source also
stands at other places. -/
inductive Rearranges (t : SymbolTable) : Node → Node → Prop
  | swap {name : String} {at_ : Location} (condition yes no : Node) (l : Location) :
      (t.lookup name).bind (·.operator) = some .choice →
      Rearranges t (.call [.ident name at_, condition, yes, no] l)
        (.call [.ident name at_, condition, no, yes] l)
  | permute {clauses others : List (Node × Node)} (l : Location) :
      clauses.Perm others → Rearranges t (.cond clauses l) (.cond others l)
  | duplicate {c : Node × Node} {clauses : List (Node × Node)} (l : Location) :
      c ∈ clauses → Rearranges t (.cond clauses l) (.cond (c :: clauses) l)
  | relocate {n m : Node} : n.erase = m.erase → Rearranges t n m
  | member (before : List Node) {n m : Node} (after : List Node) (l : Location) :
      Rearranges t n m →
      Rearranges t (.call (before ++ n :: after) l) (.call (before ++ m :: after) l)
  | condition (before : List (Node × Node)) {n m : Node} (result : Node)
      (after : List (Node × Node)) (l : Location) : Rearranges t n m →
      Rearranges t (.cond (before ++ (n, result) :: after) l)
        (.cond (before ++ (m, result) :: after) l)
  | result (before : List (Node × Node)) (condition : Node) {n m : Node}
      (after : List (Node × Node)) (l : Location) : Rearranges t n m →
      Rearranges t (.cond (before ++ (condition, n) :: after) l)
        (.cond (before ++ (condition, m) :: after) l)

variable {t : SymbolTable}

theorem word?_erase (n : Node) : n.erase.word? = n.word? := by
  cases n <;> rfl

/-- A name stays the same name. -/
theorem Rearranges.word? {n m : Node} (h : n.Rearranges t m) : n.word? = m.word? := by
  cases h with
  | relocate same => rw [← word?_erase, same, word?_erase]
  | swap | permute | duplicate | member | condition | result => rfl

end Node

namespace Inference

variable {t : SymbolTable} {d : Definition}

theorem derive_of_mem_results {n m : Node} (h : m ∈ n.results t) :
    derive t d m = m.ownType t d := by
  apply eq_of_forall_ge_iff
  intro c
  rw [derive_le_iff, Node.results_of_mem_results h, List.forall_mem_singleton]

theorem derive_eq_infAll (t : SymbolTable) (d : Definition) (n : Node) :
    derive t d n = ValueType.infAll (n.resultTypes t d) := by
  apply eq_of_forall_ge_iff
  intro c
  rw [derive_le_iff, ValueType.infAll_le_iff, Node.resultTypes, List.forall_mem_map]

/-- The type of a form depends only on the name at its head and on the types of its other
members. -/
theorem derive_call_congr {n m : Node} {args others : List Node} {l : Location}
    (word : n.word? = m.word?) (types : args.map (derive t d) = others.map (derive t d)) :
    derive t d (.call (n :: args) l) = derive t d (.call (m :: others) l) := by
  cases n with
  | ident name at_ =>
    cases m with
    | ident other at_ =>
      obtain rfl : name = other := Option.some.inj word
      simp only [derive, deriveAll_eq, types]
    | int | char | str | call | cond => cases word
  | int | char | str | call | cond =>
    cases m with
    | ident => cases word
    | int | char | str | call | cond => rfl

/-- No change in the order of a tree changes its type. -/
theorem derive_of_rearranges {n m : Node} (h : n.Rearranges t m) : derive t d n = derive t d m := by
  induction h with
  | swap condition yes no l choice =>
    rw [derive_choice choice, derive_choice choice, ValueType.inf_comm]
  | permute l perm =>
    rw [derive_cond_eq_infAll, derive_cond_eq_infAll]
    exact ValueType.infAll_congr fun type => (perm.map _).mem_iff
  | duplicate l among =>
    rw [derive_cond_eq_infAll, derive_cond_eq_infAll]
    apply ValueType.infAll_congr
    intro type
    rw [List.map_cons, List.mem_cons, or_iff_right_of_imp]
    rintro rfl
    exact List.mem_map_of_mem among
  | relocate same => rw [← derive_erase, same, derive_erase]
  | member before after l inner ih =>
    -- A changed head is the same name as before, or it was no name and is none.
    cases before with
    | nil => exact derive_call_congr inner.word? rfl
    | cons first rest =>
      apply derive_call_congr rfl
      simp only [List.append_eq, List.map_append, List.map_cons, ih]
  | condition before result after l inner ih =>
    simp only [derive_cond_eq_infAll, List.map_append, List.map_cons]
  | result before condition after l inner ih =>
    simp only [derive_cond_eq_infAll, List.map_append, List.map_cons, ih]

/-- However often the order of a tree is changed, its type stays the same. -/
theorem derive_of_rearranged {n m : Node} (h : Relation.EqvGen (Node.Rearranges t) n m) :
    derive t d n = derive t d m := by
  induction h with
  | rel n m step => exact derive_of_rearranges step
  | refl n => rfl
  | symm n m _ ih => exact ih.symm
  | trans n m k _ _ first second => exact first.trans second

/-- The type that is derived for a tree is the join of the types of its results, in whatever order
they are joined. It is `nothing` if all of them are `nothing`, a type between `nothing` and `any` if
the results agree on it, and `any` otherwise. So no change in the order of the tree changes it. -/
theorem derive_joins_results (t : SymbolTable) (d : Definition) (n : Node) :
    (∀ m ∈ n.results t, derive t d m = m.ownType t d) ∧
    (∀ types : List ValueType, (∀ type, type ∈ types ↔ type ∈ n.resultTypes t d) →
      ValueType.infAll types = derive t d n) ∧
    (derive t d n = .nothing ↔ ∀ type ∈ n.resultTypes t d, type = .nothing) ∧
    (∀ type, type ≠ .any → type ≠ .nothing →
      (derive t d n = type ↔ ValueType.AgreeOn (n.resultTypes t d) type)) ∧
    (derive t d n = .any ↔ (∃ type ∈ n.resultTypes t d, type ≠ .nothing) ∧
      ∀ type, type ≠ .any → type ≠ .nothing → ¬ ValueType.AgreeOn (n.resultTypes t d) type) ∧
    ∀ m, Relation.EqvGen (Node.Rearranges t) n m → derive t d m = derive t d n := by
  have unchanged (m : Node) (h : Relation.EqvGen (Node.Rearranges t) n m) :
      derive t d m = derive t d n :=
    (derive_of_rearranged h).symm
  rw [derive_eq_infAll t d n] at unchanged ⊢
  exact ⟨fun _ => derive_of_mem_results, fun _ => ValueType.infAll_congr,
    ValueType.infAll_eq_nothing_iff, fun _ => ValueType.infAll_eq_iff_agreeOn,
    ValueType.infAll_eq_any_iff, unchanged⟩

open Sample

/-- A function that does not return. -/
def endless : Node :=
  defun "endless" [] (form [name "endless"])

/-- A function whose parameter is an integer. -/
def caller : Definition :=
  { name := "caller", params := [⟨"x", .integer⟩], ret := .nothing }

/-- A clause whose result is a call that does not return. -/
def stuck : Node × Node :=
  (name "x", form [name "endless"])

/-- A clause whose result is a choice. -/
def pick (yes no : Node) : Node × Node :=
  (name "T", form [name "if", name "x", yes, no])

/-- A conditional with three results: two calls that do not return, and the parameter. -/
def nested : Node :=
  .cond [stuck, pick (name "x") (form [name "endless"])] here

/-- The same with the branches of the choice and the clauses in another order, and with one of the
clauses twice. -/
def turned : Node :=
  .cond [pick (form [name "endless"]) (name "x"), stuck, stuck] here

/-- The results of both conditionals agree on the type of the parameter. -/
theorem derive_joins_results_nested : ∃ t, SymbolTable.ofForms [endless] = .ok t ∧
    Relation.EqvGen (Node.Rearranges t) nested turned ∧
    derive t caller nested = .integer ∧ derive t caller turned = .integer ∧
    ValueType.infAll [.integer, .nothing] = derive t caller nested := by
  obtain ⟨t, build, checked⟩ : ∃ t, SymbolTable.ofForms [endless] = .ok t ∧
      ((t.lookup "if").bind (·.operator), nested.resultTypes t caller) =
        (some .choice, [.nothing, .integer, .nothing]) :=
    exists_eq_ok (by decide +kernel)
  obtain ⟨operator, types⟩ := Prod.mk.inj checked
  have rearranged : Relation.EqvGen (Node.Rearranges t) nested turned := by
    have swapped : Node.Rearranges t (pick (name "x") (form [name "endless"])).2
        (pick (form [name "endless"]) (name "x")).2 :=
      .swap _ _ _ _ operator
    refine .trans _ _ _ (.rel _ _ (.result [stuck] (name "T") [] here swapped)) ?_
    refine .trans _ _ _ (.rel _ _ (.duplicate here List.mem_cons_self)) ?_
    exact .rel _ _ (.permute here (List.perm_append_singleton _ [stuck, stuck]))
  obtain ⟨-, join, -, agree, -, unchanged⟩ := derive_joins_results t caller nested
  have integer : derive t caller nested = .integer := by
    rw [agree .integer (by decide) (by decide), types]
    exact ⟨by decide, by decide⟩
  refine ⟨t, build, rearranged, integer, (unchanged turned rearranged).trans integer, ?_⟩
  apply join
  intro type
  cases type <;> simp [types]

end Inference

end LittleLisp
