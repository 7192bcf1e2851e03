import LittleLisp.Server.State

/-!
# What a request does to one document

The documents of the server are looked up by their addresses. A request opens, changes or closes
one of them at most, and what it publishes is about that one; the end of the session closes all of
them.
`Handled` lists the ways in which a document can be open after a request: it was open and the request
is not about it, or a text was delivered for it, and it has settled on that text.
-/

namespace LittleLisp.Server

/-! ## Looking up documents -/

theorem lookup_cons_eq {α : Type} (name : String) (a : α) (entries : List (String × α))
    (other : String) :
    ((name, a) :: entries).lookup other =
      if other = name then some a else entries.lookup other := by
  by_cases same : other = name
  · simp [same]
  · have differ : (other == name) = false := beq_eq_false_iff_ne.2 same
    simp [List.lookup_cons, differ, same]

theorem lookup_putDocument (uri : String) (d : Document) (docs : List (String × Document))
    (other : String) :
    (putDocument uri d docs).lookup other = if other = uri then some d else docs.lookup other := by
  induction docs with
  | nil => exact lookup_cons_eq uri d [] other
  | cons entry rest ih =>
    obtain ⟨name, e⟩ := entry
    simp only [putDocument, beq_iff_eq]
    split
    · next here =>
      subst here
      simp only [lookup_cons_eq]
      split <;> rfl
    · next elsewhere =>
      simp only [lookup_cons_eq, ih]
      by_cases same : other = uri
      · subst same
        simp only [if_true, if_neg (Ne.symm elsewhere)]
      · simp only [if_neg same]

theorem lookup_filter_ne (uri : String) (docs : List (String × Document)) (other : String) :
    (docs.filter fun e => e.1 != uri).lookup other =
      if other = uri then none else docs.lookup other := by
  induction docs with
  | nil => simp
  | cons entry rest ih =>
    obtain ⟨name, e⟩ := entry
    by_cases here : name = uri
    · subst here
      simp only [List.filter_cons, bne_self_eq_false, Bool.false_eq_true, if_false, ih,
        lookup_cons_eq]
      split <;> rfl
    · simp only [List.filter_cons, bne_iff_ne.2 here, if_true, ih, lookup_cons_eq]
      by_cases same : other = uri
      · subst same
        simp only [if_true, if_neg (Ne.symm here)]
      · simp only [if_neg same]

variable {s : Server} {uri other : String} {d old : Document} {tree : FileTree}

@[simp] theorem document?_put (s : Server) (uri : String) (d : Document) (other : String) :
    (s.put uri d).document? other = if other = uri then some d else s.document? other :=
  lookup_putDocument uri d s.documents other

@[simp] theorem document?_erase (s : Server) (uri other : String) :
    (s.erase uri).document? other = if other = uri then none else s.document? other :=
  lookup_filter_ne uri s.documents other

/-! ## Texts that are delivered -/

/-- The path that the text at an address is compiled under: the address itself, if it is not that of
a file. -/
def pathOf (uri : String) : String :=
  match filePathOf uri with
  | .ok path => path
  | .error _ => uri

/-- A text that is delivered for a document, with the name of the file and the settings in force. -/
structure Delivery where
  text : String
  file : String
  settings : Settings

namespace Delivery

/-- What reading and compiling the text gives. -/
def outcome (x : Delivery) : Except Problem (List Node × CompiledUnit) :=
  (Document.compile x.file x.text x.settings).result

/-- The diagnostics of the text: none if it compiles, else that of its problem. -/
def diagnostics (x : Delivery) : List Diagnostic :=
  match x.outcome with
  | .ok _ => []
  | .error problem => [.ofProblem problem]

/-- The trees of the text and their inferred table, if it compiles. -/
def compiled? (x : Delivery) : Option Compiled :=
  match x.outcome with
  | .ok (forms, u) => some ⟨forms, u.table⟩
  | .error _ => none

end Delivery

/-- A text that is delivered at an address, with the settings of a server in some file tree. -/
def delivery (tree : FileTree) (settings : Settings) (uri text : String) : Delivery :=
  ⟨text, Path.base (pathOf uri), (settingsAt tree { settings } (pathOf uri)).1⟩

/-- The settings for a path depend on those of the server, and not on its documents. -/
theorem settingsAt_eq (tree : FileTree) (s : Server) (path : String) :
    settingsAt tree s path = settingsAt tree { settings := s.settings } path := by
  simp only [settingsAt]

theorem result_compileAt (tree : FileTree) (s : Server) (uri text : String) :
    (compileAt tree s uri text).result = (delivery tree s.settings uri text).outcome := by
  cases filed : filePathOf uri <;>
    simp only [compileAt, Delivery.outcome, delivery, ← settingsAt_eq, pathOf, filed]

/-- The text that a request delivers for the document at an address. -/
def Request.textFor? (uri : String) : Request → Option String
  | .didOpen at_ _ text => if at_ = uri then some text else none
  | .didChange at_ _ text | .didSave at_ text => if at_ = uri then text else none
  | _ => none

/-- A request opens the document at an address. -/
def Request.Opens (uri : String) (r : Request) : Prop :=
  ∃ version text, r = .didOpen uri version text

/-- A request neither opens nor closes the document at an address. -/
def Request.Keeps (uri : String) : Request → Prop
  | .didOpen at_ _ _ | .didClose at_ => at_ ≠ uri
  | .shutdown => False
  | _ => True

/-! ## New texts -/

/-- A text for a document that is not open changes nothing. -/
theorem update_of_unknown (h : s.document? uri = none) (text : String) (version : Option Int) :
    update tree s uri text version = (s, { result := .error (.unknownDocument uri) }) := by
  simp only [update, h]

/-- An open document settles on a new text, and its diagnostics are published. -/
theorem update_of_open (tree : FileTree) (h : s.document? uri = some old) (text : String)
    (version : Option Int) :
    ∃ d records, d = { old with text, version := version.getD old.version }.settle
        (delivery tree s.settings uri text).outcome ∧
      update tree s uri text version =
        (s.put uri d, { published := [⟨uri, d.version, d.diagnostics⟩], records }) := by
  refine ⟨_, (compileAt tree s uri text).records, rfl, ?_⟩
  simp only [update, h, result_compileAt]

/-- A text for one document does not touch the others. -/
theorem document?_update_of_ne (tree : FileTree) (s : Server) (other_uri : other ≠ uri)
    (text : String) (version : Option Int) :
    (update tree s uri text version).1.document? other = s.document? other ∧
      ∀ p ∈ (update tree s uri text version).2.published, p.uri ≠ other := by
  cases h : s.document? uri with
  | none =>
    rw [update_of_unknown h]
    exact ⟨rfl, List.forall_mem_nil _⟩
  | some old =>
    obtain ⟨d, records, -, same⟩ := update_of_open tree h text version
    rw [same]
    refine ⟨by rw [document?_put, if_neg other_uri], ?_⟩
    intro p hp
    obtain rfl := List.mem_singleton.1 hp
    exact Ne.symm other_uri

/-! ## Requests -/

/-- How a document at an address is open after a request, and what was published. -/
inductive Handled (tree : FileTree) (s : Server) (uri : String) (d : Document) :
    Request → List Publication → Prop where
  /-- It was open before, and the request is not about it. -/
  | kept {r : Request} {published : List Publication} (was : s.document? uri = some d)
    (keeps : r.Keeps uri) (silent : r.textFor? uri = none)
    (others : ∀ p ∈ published, p.uri ≠ uri) : Handled tree s uri d r published
  /-- It is opened with a text. -/
  | opened {version : Int} {text : String}
    (settled : d = ({ text, version } : Document).settle
      (delivery tree s.settings uri text).outcome) :
    Handled tree s uri d (.didOpen uri version text) [⟨uri, d.version, d.diagnostics⟩]
  /-- It was open before, and has a new text. -/
  | changed {r : Request} {old : Document} {text : String} {version : Int}
    (was : s.document? uri = some old) (keeps : r.Keeps uri) (given : r.textFor? uri = some text)
    (settled : d = { old with text, version }.settle (delivery tree s.settings uri text).outcome) :
    Handled tree s uri d r [⟨uri, d.version, d.diagnostics⟩]

theorem handled_of_update {r : Request} {at_ text : String} {version : Option Int}
    (keeps : r.Keeps uri) (given : r.textFor? uri = if at_ = uri then some text else none)
    (h : (update tree s at_ text version).1.document? uri = some d) :
    Handled tree s uri d r (update tree s at_ text version).2.published := by
  by_cases here : at_ = uri
  · subst here
    rw [if_pos rfl] at given
    cases was : s.document? at_ with
    | none =>
      rw [update_of_unknown was, was] at h
      cases h
    | some old =>
      obtain ⟨e, records, settled, same⟩ := update_of_open tree was text version
      rw [same, document?_put, if_pos rfl] at h
      obtain rfl := Option.some.inj h
      rw [same]
      exact .changed was keeps given settled
  · rw [if_neg here] at given
    obtain ⟨unchanged, others⟩ := document?_update_of_ne tree s (Ne.symm here) text version
    rw [unchanged] at h
    exact .kept h keeps given others

/-- All ways in which a document can be open after a request. -/
theorem handled_of_open {r : Request} (h : (s.handle tree r).1.document? uri = some d) :
    Handled tree s uri d r (s.handle tree r).2.published := by
  cases r with
  | shutdown => cases h
  | begin rootUri =>
    refine .kept h trivial rfl ?_
    have silent : (beginSession rootUri).published = [] := by
      unfold beginSession
      split
      · rfl
      · split <;> rfl
    intro p hp
    rw [Server.handle, silent] at hp
    cases hp
  | begun | exit | hover | definition | completion | symbols =>
    exact .kept h trivial rfl (List.forall_mem_nil _)
  | didOpen at_ version text =>
    by_cases here : at_ = uri
    · subst here
      have blank : (s.put at_ { version }).document? at_ = some { version } := by
        rw [document?_put, if_pos rfl]
      obtain ⟨e, records, settled, same⟩ :=
        update_of_open tree blank text (some version)
      rw [Server.handle, same, document?_put, if_pos rfl] at h
      obtain rfl := Option.some.inj h
      rw [Server.handle, same]
      exact .opened settled
    · obtain ⟨unchanged, others⟩ := document?_update_of_ne tree (s.put at_ { version })
        (Ne.symm here) text (some version)
      rw [Server.handle, unchanged, document?_put, if_neg (Ne.symm here)] at h
      exact .kept h here (if_neg here) others
  | didChange at_ version text =>
    cases text with
    | none => exact .kept h trivial (ite_self _) (List.forall_mem_nil _)
    | some text => exact handled_of_update trivial rfl h
  | didSave at_ text =>
    cases text with
    | none => exact .kept h trivial (ite_self _) (List.forall_mem_nil _)
    | some text => exact handled_of_update trivial rfl h
  | didClose at_ =>
    rw [Server.handle, document?_erase] at h
    split at h
    · cases h
    · next elsewhere =>
      refine .kept h (Ne.symm elsewhere) rfl ?_
      intro p hp
      obtain rfl := List.mem_singleton.1 hp
      exact Ne.symm elsewhere

theorem settings_handle (tree : FileTree) (s : Server) (r : Request) :
    (s.handle tree r).1.settings = s.settings := by
  have update_settings (u : Server) (at_ text : String) (version : Option Int) :
      (update tree u at_ text version).1.settings = u.settings := by
    unfold update
    split <;> rfl
  cases r with
  | didOpen at_ version text => exact update_settings _ _ _ _
  | didChange at_ version text =>
    cases text with
    | none => rfl
    | some text => exact update_settings _ _ _ _
  | didSave at_ text =>
    cases text with
    | none => rfl
    | some text => exact update_settings _ _ _ _
  | _ => rfl

end LittleLisp.Server
