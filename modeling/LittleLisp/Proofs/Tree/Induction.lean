import LittleLisp.Tree

/-!
# Induction over trees

A tree holds lists of trees and lists of pairs of trees. `Node.induction` gives the hypotheses for
all that a node holds as statements about membership, so a proof about trees has one case for each
kind of node and no second statement about lists.
-/

namespace LittleLisp.Node

/-- What holds of a node when it holds of all that the node holds, holds of every tree. -/
@[elab_as_elim]
theorem induction {motive : Node → Prop}
    (call : ∀ members l, (∀ n ∈ members, motive n) → motive (.call members l))
    (int : ∀ value l, motive (.int value l))
    (char : ∀ value l, motive (.char value l))
    (str : ∀ value l, motive (.str value l))
    (ident : ∀ name l, motive (.ident name l))
    (cond : ∀ clauses l, (∀ c ∈ clauses, motive c.1 ∧ motive c.2) → motive (.cond clauses l))
    (n : Node) : motive n :=
  @Node.rec motive (fun members => ∀ n ∈ members, motive n)
    (fun clauses => ∀ c ∈ clauses, motive c.1 ∧ motive c.2) (fun c => motive c.1 ∧ motive c.2)
    call int char str ident cond
    (List.forall_mem_nil _) (fun _ _ first rest => List.forall_mem_cons.2 ⟨first, rest⟩)
    (List.forall_mem_nil _) (fun _ _ first rest => List.forall_mem_cons.2 ⟨first, rest⟩)
    (fun _ _ condition result => ⟨condition, result⟩) n

theorem walkClauses_eq (clauses : List (Node × Node)) :
    walkClauses clauses = clauses.flatMap fun c => c.1.walk ++ c.2.walk := by
  induction clauses with
  | nil => rfl
  | cons c rest ih => rw [walkClauses, ih, List.flatMap_cons, List.append_assoc]

/-- The trees that a tree is made of: the members of a form, and the conditions and results of a
conditional. -/
def parts : Node → List Node
  | call members _ => members
  | cond clauses _ => clauses.flatMap fun c => [c.1, c.2]
  | _ => []

/-- What goes on from trees to their parts holds of everything inside a tree. -/
theorem forall_mem_walk {P : Node → Prop} (down : ∀ n, P n → ∀ m ∈ n.parts, P m) {n : Node}
    (h : P n) : ∀ m ∈ n.walk, P m := by
  induction n using Node.induction with
  | int | char | str | ident => exact List.forall_mem_singleton.2 h
  | call members l ih =>
    rw [walk, walkAll_eq]
    refine List.forall_mem_cons.2 ⟨h, fun m hm => ?_⟩
    obtain ⟨n, hn, inside⟩ := List.mem_flatMap.1 hm
    exact ih n hn (down _ h n hn) m inside
  | cond clauses l ih =>
    have made (c) (hc : c ∈ clauses) : P c.1 ∧ P c.2 :=
      ⟨down _ h c.1 (List.mem_flatMap.2 ⟨c, hc, by simp⟩),
        down _ h c.2 (List.mem_flatMap.2 ⟨c, hc, by simp⟩)⟩
    rw [walk, walkClauses_eq]
    refine List.forall_mem_cons.2 ⟨h, fun m hm => ?_⟩
    obtain ⟨c, hc, inside⟩ := List.mem_flatMap.1 hm
    rcases List.mem_append.1 inside with condition | result
    · exact (ih c hc).1 (made c hc).1 m condition
    · exact (ih c hc).2 (made c hc).2 m result

end LittleLisp.Node
