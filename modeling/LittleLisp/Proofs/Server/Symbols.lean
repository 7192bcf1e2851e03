import LittleLisp.Proofs.Server.Parameter
import LittleLisp.Proofs.Sorting.Sorted
import Mathlib.Data.Prod.Lex
import Mathlib.Data.String.Basic

/-!
# Searching for functions

A search goes through the open documents in the order in which the server happens to have them, and
then sorts what it has found by name, address and line. So the entries and the order of their keys
are the same in whatever order the documents come (`symbols_answer`). The answer as a whole is laid
down exactly if no two functions of one name are on one line of a document: only then do the keys
tell all entries apart. Entries with the same key are left where the sort puts them, and this depends
on where it finds them (`symbols_follow_documents`).
-/

namespace LittleLisp.Server

open Node (defunNames identTokens)

variable {s : Server} {uri query : String} {d : Document} {settings : Settings}
  {history : List Event}

/-! ## The addresses of documents -/

/-- No two open documents have the same address. -/
def Distinct (s : Server) : Prop :=
  (s.documents.map (·.1)).Nodup

theorem mem_addresses_putDocument {uri other : String} {d : Document}
    {docs : List (String × Document)} (h : other ∈ (putDocument uri d docs).map (·.1)) :
    other = uri ∨ other ∈ docs.map (·.1) := by
  induction docs with
  | nil => exact .inl (List.mem_singleton.1 h)
  | cons e rest ih =>
    simp only [putDocument] at h
    split at h
    · rcases List.mem_cons.1 h with same | later
      · exact .inl same
      · exact .inr (List.mem_cons_of_mem _ later)
    · rcases List.mem_cons.1 h with same | later
      · exact .inr (same ▸ List.mem_cons_self)
      · exact (ih later).imp_right (List.mem_cons_of_mem _)

theorem nodup_putDocument (uri : String) (d : Document) {docs : List (String × Document)}
    (h : (docs.map (·.1)).Nodup) : ((putDocument uri d docs).map (·.1)).Nodup := by
  induction docs with
  | nil => exact List.nodup_singleton uri
  | cons e rest ih =>
    rw [List.map_cons, List.nodup_cons] at h
    obtain ⟨fresh, others⟩ := h
    simp only [putDocument, beq_iff_eq]
    split
    · next here => exact List.nodup_cons.2 ⟨here ▸ fresh, others⟩
    · next elsewhere =>
      refine List.nodup_cons.2 ⟨fun inside => ?_, ih others⟩
      rcases mem_addresses_putDocument inside with same | old
      · exact elsewhere same
      · exact fresh old

theorem Distinct.put (h : s.Distinct) (uri : String) (d : Document) : (s.put uri d).Distinct :=
  nodup_putDocument uri d h

theorem Distinct.erase (h : s.Distinct) (uri : String) : (s.erase uri).Distinct :=
  h.sublist (List.filter_sublist.map _)

theorem Distinct.update (h : s.Distinct) (tree : FileTree) (uri text : String)
    (version : Option Int) : (update tree s uri text version).1.Distinct := by
  rw [Server.update]
  split
  · exact h
  · exact h.put uri _

theorem Distinct.handle (h : s.Distinct) (tree : FileTree) (r : Request) :
    (s.handle tree r).1.Distinct := by
  cases r with
  | shutdown => exact List.nodup_nil
  | didOpen at_ version text => exact (h.put at_ _).update tree at_ text (some version)
  | didChange at_ version text =>
    cases text with
    | none => exact h
    | some text => exact h.update tree at_ text (some version)
  | didSave at_ text =>
    cases text with
    | none => exact h
    | some text => exact h.update tree at_ text none
  | didClose at_ => exact h.erase at_
  | _ => exact h

theorem distinct_after (settings : Settings) (history : List Event) :
    (after { settings } history).Distinct := by
  have start : ({ settings } : Server).Distinct := List.nodup_nil
  generalize ({ settings } : Server) = s at start
  induction history generalizing s with
  | nil => exact start
  | cons e rest ih => exact ih _ (start.handle e.tree e.request)

/-- What is looked up at the address of a document is this document. -/
theorem Distinct.document?_of_mem (h : s.Distinct) {e : String × Document} (he : e ∈ s.documents) :
    s.document? e.1 = some e.2 := by
  rw [document?]
  rw [Distinct] at h
  generalize s.documents = docs at h he
  induction docs with
  | nil => cases he
  | cons first rest ih =>
    rw [List.map_cons, List.nodup_cons] at h
    obtain ⟨fresh, others⟩ := h
    rw [← Prod.mk.eta (p := first), lookup_cons_eq]
    rcases List.mem_cons.1 he with rfl | later
    · exact if_pos rfl
    · rw [if_neg, ih others later]
      rintro same
      exact fresh (same ▸ List.mem_map_of_mem later)

/-- The names in the trees of an open document stand one before the other. -/
theorem ordered_of_open (opened : (after { settings } history).document? uri = some d) :
    (identTokens d.forms).Pairwise Token.Before := by
  obtain ⟨-, opening, later, -, -, -, reflects, -⟩ := remembered_of_open settings history opened
  have known := reflects.compiled
  rw [Document.forms]
  cases compiled : d.compiled with
  | none => exact List.Pairwise.nil
  | some k =>
    rw [compiled] at known
    obtain ⟨x, -, makes⟩ := List.mem_filterMap.1 (List.mem_of_getLast? known.symm)
    cases outcome : x.outcome with
    | error problem => simp [Delivery.compiled?, outcome] at makes
    | ok made =>
      obtain ⟨forms, u⟩ := made
      simp only [Delivery.compiled?, outcome, Option.some.injEq] at makes
      obtain rfl := makes
      exact (Node.ordered_of_parse (Delivery.outcome_eq_ok outcome).1).1

/-! ## Names that match -/

theorem holds_iff {piece text : List Char} : holds piece text = true ↔ piece <:+: text := by
  induction text with
  | nil => simp [holds]
  | cons c rest ih =>
    rw [holds, Bool.or_eq_true, List.isPrefixOf_iff_prefix, ih, List.infix_cons_iff]

/-- A name has the text of a query in it, in any case. -/
def Matches (query name : String) : Prop :=
  (Text.toLower query).toList <:+: (Text.toLower name).toList

instance (query name : String) : Decidable (Matches query name) :=
  inferInstanceAs (Decidable ((Text.toLower query).toList <:+: (Text.toLower name).toList))

theorem matchesQuery_eq (query name : String) :
    matchesQuery query name = decide (Matches query name) := by
  rw [Bool.eq_iff_iff, decide_eq_true_iff]
  exact holds_iff

/-- The functions of a document whose names match, where these are written. -/
def Document.matching (d : Document) (query : String) : List Node.Written :=
  (defunNames d.forms).filter fun w => Matches query w.name

/-- The entry for a function that has its name written in the document at an address. -/
def Symbol.ofWritten (uri : String) (w : Node.Written) : Symbol :=
  ⟨w.name, uri, Range.ofLocation w.loc⟩

/-- An entry for each form of a document that defines a function whose name matches. -/
def listing (documents : List (String × Document)) (query : String) : List Symbol :=
  documents.flatMap fun e => (e.2.matching query).map (Symbol.ofWritten e.1)

theorem symbols_eq (s : Server) (query : String) :
    s.symbols query = sortSymbols (listing s.documents query) := by
  have each (w : Node.Written) : matchesQuery query w.name = decide (Matches query w.name) :=
    matchesQuery_eq query w.name
  simp only [symbols, listing, Document.symbols, Document.matching, defunNames, each]
  rfl

/-! ## Entries and their keys -/

/-- What entries are ordered by: first name, then address, then line. -/
def Symbol.key (e : Symbol) : String ×ₗ String ×ₗ Int :=
  toLex (e.name, toLex (e.uri, e.range.start.line))

/-- No two functions of a document whose names match have the same name on the same line. -/
def Document.Separates (d : Document) (query : String) : Prop :=
  (d.matching query).Pairwise fun v w => v.name = w.name → v.loc.line ≠ w.loc.line

theorem key_ofWritten (uri : String) (w : Node.Written) :
    (Symbol.ofWritten uri w).key = toLex (w.name, toLex (uri, w.loc.line - 1)) := by
  rw [Symbol.key, Symbol.ofWritten, start_ofLocation]

theorem separates_iff (uri : String) :
    d.Separates query ↔ ((d.matching query).map fun w => (Symbol.ofWritten uri w).key).Nodup := by
  rw [Document.Separates, List.Nodup, List.pairwise_map]
  refine List.Pairwise.iff fun v w => ?_
  simp only [key_ofWritten, ne_eq, toLex_inj, Prod.mk.injEq, true_and, not_and, sub_left_inj]

theorem defunNames_sublist (forms : List Node) :
    (defunNames forms).Sublist (forms.flatMap identsOf) := by
  induction forms with
  | nil => exact .slnil
  | cons form rest ih =>
    rw [defunNames, List.flatMap_cons]
    cases named : form.defunName? with
    | none =>
      rw [List.filterMap_cons_none named]
      exact ih.trans (List.sublist_append_right _ _)
    | some w =>
      rw [List.filterMap_cons_some named]
      exact (List.singleton_sublist.2 (Node.mem_identsOf_of_defunName? named)).append ih

/-- The entries of a document are different, since they are about different places. -/
theorem nodup_entries (uri query : String) (ordered : (identTokens d.forms).Pairwise Token.Before) :
    ((d.matching query).map (Symbol.ofWritten uri)).Nodup := by
  have sublist : (d.matching query).Sublist (d.forms.flatMap identsOf) :=
    List.filter_sublist.trans (defunNames_sublist d.forms)
  refine (Node.nodup_idents ordered).sublist sublist |>.map_on fun v hv w hw same => ?_
  exact eq_of_ofLocation_eq ordered (sublist.subset hv) (sublist.subset hw)
    (congrArg Symbol.range same)

/-- What tells from which document it is, is different if it is so within each document. -/
theorem nodup_flatMap_matching {β : Type} (f : String → Node.Written → β) (address : β → String)
    (kept : ∀ uri w, address (f uri w) = uri) {docs : List (String × Document)}
    (distinct : (docs.map (·.1)).Nodup) (query : String) :
    (docs.flatMap fun e => (e.2.matching query).map (f e.1)).Nodup ↔
      ∀ e ∈ docs, ((e.2.matching query).map (f e.1)).Nodup := by
  rw [List.nodup_flatMap, and_iff_left]
  refine (List.pairwise_map.1 distinct).imp fun {e e'} differ x hx hx' => ?_
  obtain ⟨w, -, rfl⟩ := List.mem_map.1 hx
  obtain ⟨w', -, same⟩ := List.mem_map.1 hx'
  have addresses := congrArg address same
  rw [kept, kept] at addresses
  exact differ addresses.symm

theorem nodup_listing (history : List Event) (query : String) :
    (listing (after { settings } history).documents query).Nodup := by
  have distinct := distinct_after settings history
  have each := nodup_flatMap_matching Symbol.ofWritten Symbol.uri (fun _ _ => rfl) distinct query
  exact each.2 fun e he => nodup_entries e.1 query (ordered_of_open (distinct.document?_of_mem he))

theorem nodup_keys_iff {docs : List (String × Document)} (distinct : (docs.map (·.1)).Nodup) :
    ((listing docs query).map Symbol.key).Nodup ↔ ∀ e ∈ docs, e.2.Separates query := by
  have keys : (listing docs query).map Symbol.key =
      docs.flatMap fun e => (e.2.matching query).map fun w => (Symbol.ofWritten e.1 w).key := by
    simp only [listing, List.map_flatMap, List.map_map, Function.comp_def]
  have each := nodup_flatMap_matching (fun uri w => (Symbol.ofWritten uri w).key)
    (fun k => (ofLex (ofLex k).2).1) (fun _ _ => rfl) distinct query
  rw [keys, each]
  exact forall₂_congr fun e _ => (separates_iff e.1).symm

/-! ## The order of the answer -/

theorem isLT_order (a b : Symbol) : (a.order b).isLT = decide (a.key < b.key) := by
  rw [Bool.eq_iff_iff, decide_eq_true_iff]
  simp only [Symbol.order, Symbol.key, Prod.Lex.toLex_lt_toLex, Ordering.isLT_iff_eq_lt,
    Ordering.then_eq_lt, compare_lt_iff_lt, compare_eq_iff_eq]

theorem isOrder_symbols : Sorting.IsOrder fun a b : Symbol => (a.order b).isLT where
  asymm {a b} h := by
    rw [isLT_order, decide_eq_true_iff] at h
    rw [isLT_order, decide_eq_false_iff_not]
    exact h.asymm
  trans {a b c} first second := by
    rw [isLT_order, decide_eq_false_iff_not, not_lt] at first second ⊢
    exact first.trans second

/-- Entries whose keys ascend. -/
def Ascending (entries : List Symbol) : Prop :=
  entries.Pairwise fun a b => a.key ≤ b.key

theorem ascending_sortSymbols (entries : List Symbol) : Ascending (sortSymbols entries) :=
  (Sorting.pairwise_sort isOrder_symbols entries).imp fun {a b} h => by
    rwa [isLT_order, decide_eq_false_iff_not, not_lt] at h

theorem sortSymbols_perm (entries : List Symbol) : (sortSymbols entries).Perm entries :=
  Sorting.sort_perm isOrder_symbols entries

/-- The keys of entries that ascend are the same for all permutations. -/
theorem Ascending.keys_eq {l m : List Symbol} (hl : Ascending l) (hm : Ascending m)
    (perm : m.Perm l) : m.map Symbol.key = l.map Symbol.key :=
  (perm.map Symbol.key).eq_of_pairwise (fun _ _ _ _ => le_antisymm) (List.pairwise_map.2 hm)
    (List.pairwise_map.2 hl)

/-- Two entries of a list change places. -/
theorem perm_map_swap {l : List Symbol} (distinct : l.Nodup) {a b : Symbol} (ha : a ∈ l)
    (hb : b ∈ l) : (l.map (Equiv.swap a b)).Perm l := by
  have inside (e : Symbol) (he : e ∈ l) : Equiv.swap a b e ∈ l := by
    rw [Equiv.swap_apply_def]
    split
    · exact hb
    split
    · exact ha
    · exact he
  refine (List.perm_ext_iff_of_nodup (distinct.map (Equiv.injective _)) distinct).2 fun e => ?_
  rw [List.mem_map]
  constructor
  · rintro ⟨e', he', rfl⟩
    exact inside e' he'
  · exact fun he => ⟨_, inside e he, Equiv.swap_apply_self a b e⟩

/-- Entries that ascend are the only such permutation exactly if their keys are different: two
entries with one key can be exchanged. -/
theorem Ascending.unique_iff {l : List Symbol} (h : Ascending l) (distinct : l.Nodup) :
    (∀ m, m.Perm l → Ascending m → m = l) ↔ (l.map Symbol.key).Nodup := by
  constructor
  · intro unique
    refine (List.nodup_map_iff_inj_on distinct).2 fun a ha b hb same => ?_
    have key (e : Symbol) : (Equiv.swap a b e).key = e.key := by
      rw [Equiv.swap_apply_def]
      split
      · next here => rw [here, same]
      split
      · next here => rw [here, same]
      · rfl
    have ascending : Ascending (l.map (Equiv.swap a b)) := by
      rw [Ascending, List.pairwise_map]
      simp only [key]
      exact h
    have fixed := List.map_inj_left.1 ((unique _ (perm_map_swap distinct ha hb) ascending).trans
      l.map_id.symm) a ha
    exact fixed.symm.trans (Equiv.swap_apply_left a b)
  · intro different m perm ascending
    refine perm.eq_of_pairwise (fun a b ha hb le ge => ?_) ascending h
    exact List.inj_on_of_nodup_map different (perm.mem_iff.1 ha) hb (le_antisymm le ge)

/-! ## Searches -/

/-- Entries that answer a search: one for each form of the documents that defines a function whose
name matches, in ascending order. -/
structure Answers (documents : List (String × Document)) (query : String)
    (entries : List Symbol) : Prop where
  perm : entries.Perm (listing documents query)
  nodup : entries.Nodup
  ascending : Ascending entries

/-- What is found answers the search, in whatever order the documents come. -/
theorem answers_sortSymbols {documents docs : List (String × Document)}
    (distinct : (listing documents query).Nodup) (perm : docs.Perm documents) :
    Answers documents query (sortSymbols (listing docs query)) where
  perm := (sortSymbols_perm _).trans (perm.flatMap_right _)
  nodup := ((sortSymbols_perm _).trans (perm.flatMap_right _)).nodup_iff.2 distinct
  ascending := ascending_sortSymbols _

/-- There is one answer exactly if every document separates what matches. -/
theorem Answers.unique_iff {documents : List (String × Document)} {entries : List Symbol}
    (h : Answers documents query entries) (distinct : (documents.map (·.1)).Nodup) :
    (∀ others, Answers documents query others → others = entries) ↔
      ∀ e ∈ documents, e.2.Separates query := by
  rw [← nodup_keys_iff distinct, ← (h.perm.map Symbol.key).nodup_iff,
    ← h.ascending.unique_iff h.nodup]
  constructor
  · intro unique m perm ascending
    exact unique m ⟨perm.trans h.perm, perm.nodup_iff.2 h.nodup, ascending⟩
  · intro unique m others
    exact unique m (others.perm.trans h.perm.symm) others.ascending

/-- **Searching for functions.** After any requests, in any file trees, a search is answered by one
entry for each form of the open documents that defines a function whose name has the query in it, in
any case; the keys of the entries ascend. Whatever the order in which the documents come, there is an
answer of this kind, with the same keys. It is the same answer, the only one of its kind, exactly if
in no document two functions that match have one name on one line. -/
theorem symbols_answer (settings : Settings) (history : List Event) (tree : FileTree)
    (query : String) :
    let s := after { settings } history
    ∃ entries, (s.handle tree (.symbols query)).2.result = .ok (.symbols entries) ∧
      Answers s.documents query entries ∧
      (∀ documents, documents.Perm s.documents → ∃ others,
        (handle tree { s with documents } (.symbols query)).2.result = .ok (.symbols others) ∧
        Answers s.documents query others ∧ others.map Symbol.key = entries.map Symbol.key) ∧
      ((∀ others, Answers s.documents query others → others = entries) ↔
        ∀ e ∈ s.documents, e.2.Separates query) := by
  intro s
  have distinct : s.Distinct := distinct_after settings history
  have different : (listing s.documents query).Nodup := nodup_listing history query
  have own : Answers s.documents query (s.symbols query) :=
    symbols_eq s query ▸ answers_sortSymbols different (.refl _)
  refine ⟨_, rfl, own, fun documents perm => ⟨_, rfl, ?_⟩, own.unique_iff distinct⟩
  have other := answers_sortSymbols different perm
  rw [symbols_eq]
  exact ⟨other, own.ascending.keys_eq other.ascending (other.perm.trans own.perm.symm)⟩

/-- A document is opened with some functions of the same name on one line. -/
def openingCrowd (uri : String) (size : Nat) : Event :=
  ⟨.empty, .didOpen uri 1 (String.join (List.replicate size "(defun f () 1) "))⟩

/-- Three documents with thirteen functions, more than are sorted by insertion. -/
def crowd : List Event :=
  [openingCrowd "file:///a" 5, openingCrowd "file:///b" 4, openingCrowd "file:///c" 4]

/-- The thirteen functions are found in either order of the documents. -/
theorem symbols_answer_crowd :
    let s := after {} crowd
    s.documents.reverse.Perm s.documents ∧ ∃ entries others,
      (s.handle .empty (.symbols "")).2.result = .ok (.symbols entries) ∧
      (handle .empty { s with documents := s.documents.reverse } (.symbols "")).2.result =
        .ok (.symbols others) ∧
      entries.length = 13 ∧ others.map Symbol.key = entries.map Symbol.key := by
  intro s
  have perm : s.documents.reverse.Perm s.documents := List.reverse_perm _
  obtain ⟨entries, found, answers, orders, -⟩ := symbols_answer {} crowd .empty ""
  obtain ⟨others, found', -, keys⟩ := orders _ perm
  have size : (listing s.documents "").length = 13 := by decide +kernel
  exact ⟨perm, entries, others, found, found', answers.perm.length_eq.trans size, keys⟩

/-- The same search in the same documents has another answer if these come in another order. -/
theorem symbols_follow_documents :
    ∃ documents, documents.Perm (after {} crowd).documents ∧
      (handle .empty { after {} crowd with documents } (.symbols "")).2.result ≠
        ((after {} crowd).handle .empty (.symbols "")).2.result := by
  refine ⟨_, List.reverse_perm _, ?_⟩
  decide +kernel

end LittleLisp.Server
