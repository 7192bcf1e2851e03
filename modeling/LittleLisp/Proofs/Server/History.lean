import LittleLisp.Proofs.Server.Documents
import Mathlib.Data.List.Induction

/-!
# What the server keeps of a history

After any sequence of requests, an open document reflects the texts that were delivered for it since
it was last opened: its text and its diagnostics are those of the last one, and its trees and its
table come together from the last one that compiled. The editor shows the same, since the last
diagnostics that were published for the document are its own.

The proof goes along the history from its end: `Handled` says what the last request does, and every
way of handling it keeps the invariant (`Reflects.deliver`).
-/

namespace LittleLisp.Server

/-- A request, and the files that there are when it comes. -/
structure Event where
  tree : FileTree
  request : Request

/-- The server after requests, one after another. -/
def after (s : Server) : List Event → Server
  | [] => s
  | e :: rest => (s.handle e.tree e.request).1.after rest

/-- What is published on requests, in order. -/
def published (s : Server) : List Event → List Publication
  | [] => []
  | e :: rest =>
    (s.handle e.tree e.request).2.published ++ (s.handle e.tree e.request).1.published rest

/-- The last diagnostics that were published for an address. -/
def lastFor? (uri : String) (ps : List Publication) : Option Publication :=
  (ps.filter (·.uri == uri)).getLast?

/-- The text that an event delivers for the document at an address. -/
def Event.delivery? (settings : Settings) (uri : String) (e : Event) : Option Delivery :=
  (e.request.textFor? uri).map (delivery e.tree settings uri)

/-- A document shows the last of the texts that were delivered for it, and knows the last one that
compiled. -/
structure Document.Reflects (d : Document) (deliveries : List Delivery) : Prop where
  text : deliveries.getLast?.map (·.text) = some d.text
  diagnostics : deliveries.getLast?.map (·.diagnostics) = some d.diagnostics
  compiled : d.compiled = (deliveries.filterMap (·.compiled?)).getLast?

variable {s : Server} {uri : String} {d : Document}

theorem after_append (s : Server) (history more : List Event) :
    s.after (history ++ more) = (s.after history).after more := by
  induction history generalizing s with
  | nil => rfl
  | cons e rest ih => exact ih _

theorem published_append (s : Server) (history more : List Event) :
    s.published (history ++ more) = s.published history ++ (s.after history).published more := by
  induction history generalizing s with
  | nil => rfl
  | cons e rest ih => rw [List.cons_append, published, published, ih, after, List.append_assoc]

theorem settings_after (s : Server) (history : List Event) :
    (s.after history).settings = s.settings := by
  induction history generalizing s with
  | nil => rfl
  | cons e rest ih => rw [after, ih, settings_handle]

theorem lastFor?_append_of_others {ps qs : List Publication} (others : ∀ q ∈ qs, q.uri ≠ uri) :
    lastFor? uri (ps ++ qs) = lastFor? uri ps := by
  have none : qs.filter (·.uri == uri) = [] :=
    List.filter_eq_nil_iff.2 fun q hq => by simpa using others q hq
  rw [lastFor?, List.filter_append, none, List.append_nil, lastFor?]

theorem lastFor?_append_singleton (ps : List Publication) {q : Publication} (h : q.uri = uri) :
    lastFor? uri (ps ++ [q]) = some q := by
  simp [lastFor?, List.filter_append, h]

/-- A document that settles on one more text reflects it too. -/
theorem reflects_settle (old : Document) {deliveries : List Delivery}
    (known : old.compiled = (deliveries.filterMap (·.compiled?)).getLast?) (x : Delivery)
    (version : Int) :
    ({ old with text := x.text, version }.settle x.outcome).Reflects (deliveries ++ [x]) := by
  have alone : [x].filterMap (·.compiled?) = x.compiled?.toList := by
    cases h : x.compiled? <;> simp [h]
  cases result : x.outcome with
  | error problem =>
    have none : x.compiled? = none := by simp only [Delivery.compiled?, result]
    refine ⟨by simp [Document.settle], by simp [Document.settle, Delivery.diagnostics, result], ?_⟩
    rw [List.filterMap_append, alone, none, Option.toList_none, List.append_nil, ← known]
    rfl
  | ok made =>
    obtain ⟨forms, u⟩ := made
    have compiles : x.compiled? = some ⟨forms, u.table⟩ := by simp only [Delivery.compiled?, result]
    refine ⟨by simp [Document.settle], by simp [Document.settle, Delivery.diagnostics, result], ?_⟩
    rw [List.filterMap_append, alone, compiles, Option.toList_some, List.getLast?_concat]
    rfl

/-! ## Histories -/

/-- What is known of an open document after a history: where it was last opened, and that it reflects
the texts delivered since, as does what was last published for it. -/
def Remembered (settings : Settings) (history : List Event) (uri : String) (d : Document) : Prop :=
  ∃ before opening later, history = before ++ opening :: later ∧ opening.request.Opens uri ∧
    (∀ e ∈ later, e.request.Keeps uri) ∧
    d.Reflects ((opening :: later).filterMap (Event.delivery? settings uri)) ∧
    lastFor? uri (published { settings } history) = some ⟨uri, d.version, d.diagnostics⟩

section Steps

variable {settings : Settings} {history : List Event} {e : Event} {ps : List Publication}

/-- An event that is not about a document leaves what is known of it. -/
theorem Remembered.keep (h : Remembered settings history uri d) (keeps : e.request.Keeps uri)
    (silent : e.request.textFor? uri = none) (others : ∀ p ∈ ps, p.uri ≠ uri)
    (said : published { settings } (history ++ [e]) = published { settings } history ++ ps) :
    Remembered settings (history ++ [e]) uri d := by
  obtain ⟨before, opening, later, rfl, opens, kept, reflects, shown⟩ := h
  have nothing : [e].filterMap (Event.delivery? settings uri) = [] := by
    simp [Event.delivery?, silent]
  refine ⟨before, opening, later ++ [e], by simp, opens, ?_, ?_, ?_⟩
  · exact List.forall_mem_append.2 ⟨kept, List.forall_mem_singleton.2 keeps⟩
  · rwa [← List.cons_append, List.filterMap_append, nothing, List.append_nil]
  · rw [said, lastFor?_append_of_others others, shown]

/-- A document is opened with a text. -/
theorem remembered_of_opening {version : Int} {text : String}
    (opens : e.request = .didOpen uri version text)
    (settled : d =
      ({ text, version } : Document).settle (delivery e.tree settings uri text).outcome)
    (said : published { settings } (history ++ [e]) =
      published { settings } history ++ [⟨uri, d.version, d.diagnostics⟩]) :
    Remembered settings (history ++ [e]) uri d := by
  have given : [e].filterMap (Event.delivery? settings uri) =
      [] ++ [delivery e.tree settings uri text] := by
    simp [Event.delivery?, opens, Request.textFor?]
  refine ⟨history, e, [], rfl, ⟨version, text, opens⟩, List.forall_mem_nil _, ?_, ?_⟩
  · rw [given, settled]
    exact reflects_settle { version } rfl (delivery e.tree settings uri text) version
  · rw [said]
    exact lastFor?_append_singleton _ rfl

/-- An open document has a new text. -/
theorem Remembered.change {old : Document} (h : Remembered settings history uri old)
    (keeps : e.request.Keeps uri) {text : String} {version : Int}
    (given : e.request.textFor? uri = some text)
    (settled : d = { old with text, version }.settle (delivery e.tree settings uri text).outcome)
    (said : published { settings } (history ++ [e]) =
      published { settings } history ++ [⟨uri, d.version, d.diagnostics⟩]) :
    Remembered settings (history ++ [e]) uri d := by
  obtain ⟨before, opening, later, rfl, opens, kept, reflects, -⟩ := h
  have one : [e].filterMap (Event.delivery? settings uri) =
      [delivery e.tree settings uri text] := by
    simp [Event.delivery?, given]
  refine ⟨before, opening, later ++ [e], by simp, opens, ?_, ?_, ?_⟩
  · exact List.forall_mem_append.2 ⟨kept, List.forall_mem_singleton.2 keeps⟩
  · rw [← List.cons_append, List.filterMap_append, one, settled]
    exact reflects_settle old reflects.compiled (delivery e.tree settings uri text) version
  · rw [said]
    exact lastFor?_append_singleton _ rfl

end Steps

theorem remembered_of_open (settings : Settings) (history : List Event)
    (h : (after { settings } history).document? uri = some d) :
    Remembered settings history uri d := by
  induction history using List.reverseRecOn generalizing d with
  | nil => cases h
  | append_singleton history e ih =>
    have start : (after { settings } history).settings = settings := settings_after _ history
    rw [after_append, after, after] at h
    have handled := handled_of_open h
    have said : published { settings } (history ++ [e]) = published { settings } history ++
        ((after { settings } history).handle e.tree e.request).2.published := by
      rw [published_append, published, published, List.append_nil]
    generalize ((after { settings } history).handle e.tree e.request).2.published = ps
      at handled said
    generalize same : e.request = r at handled
    cases handled with
    | kept was keeps silent others =>
      subst same
      exact (ih was).keep keeps silent others said
    | opened settled =>
      rw [start] at settled
      exact remembered_of_opening same settled said
    | changed was keeps given settled =>
      subst same
      rw [start] at settled
      exact (ih was).change keeps given settled said

/-- A document stays open as long as no request opens it anew or closes it. -/
theorem isSome_document?_handle {tree : FileTree} {r : Request} (keeps : r.Keeps uri)
    (was : (s.document? uri).isSome) : ((s.handle tree r).1.document? uri).isSome := by
  have updated (at_ text : String) (version : Option Int) :
      ((update tree s at_ text version).1.document? uri).isSome := by
    by_cases here : at_ = uri
    · subst here
      obtain ⟨old, is_old⟩ := Option.isSome_iff_exists.1 was
      obtain ⟨d, records, -, same⟩ := update_of_open tree is_old text version
      simp [same]
    · rwa [(document?_update_of_ne tree s (Ne.symm here) text version).1]
  cases r with
  | shutdown => cases keeps
  | didOpen at_ version text =>
    rw [Server.handle, (document?_update_of_ne tree _ (Ne.symm keeps) text _).1, document?_put,
      if_neg (Ne.symm keeps)]
    exact was
  | didChange at_ version text =>
    cases text with
    | none => exact was
    | some text => exact updated at_ text version
  | didSave at_ text =>
    cases text with
    | none => exact was
    | some text => exact updated at_ text none
  | didClose at_ => rwa [Server.handle, document?_erase, if_neg (Ne.symm keeps)]
  | _ => exact was

/-- A document is open exactly if a request opened it and no later one closed it. -/
theorem isSome_document?_after (settings : Settings) (history : List Event) :
    ((after { settings } history).document? uri).isSome ↔
      ∃ before opening later, history = before ++ opening :: later ∧ opening.request.Opens uri ∧
        ∀ e ∈ later, e.request.Keeps uri := by
  constructor
  · intro opened
    obtain ⟨d, found⟩ := Option.isSome_iff_exists.1 opened
    obtain ⟨before, opening, later, split, opens, kept, -⟩ :=
      remembered_of_open settings history found
    exact ⟨before, opening, later, split, opens, kept⟩
  · rintro ⟨before, opening, later, rfl, ⟨version, text, opens⟩, kept⟩
    have stays (u : Server) (was : (u.document? uri).isSome) :
        ((u.after later).document? uri).isSome := by
      induction later generalizing u with
      | nil => exact was
      | cons e rest ih =>
        obtain ⟨first, others⟩ := List.forall_mem_cons.1 kept
        exact ih others _ (isSome_document?_handle first was)
    rw [after_append, after, opens]
    refine stays _ ?_
    have blank : (((after { settings } before).put uri { version }).document? uri) =
        some { version } := by
      rw [document?_put, if_pos rfl]
    obtain ⟨d, records, -, same⟩ := update_of_open opening.tree blank text (some version)
    simp [Server.handle, same]

/-- **Documents reflect their history.** After any requests, in any file trees, a document is open
exactly if some request opened it and no later one opened it anew or closed it. Its text is the last
one that was delivered for it since then, its diagnostics are those of that text, and its trees and
its table are those of the last text since then that compiled. The last diagnostics published for its
address are its own, with its version. A new text for a document that is not open fails and changes
nothing. -/
theorem documents_reflect_history (settings : Settings) (history : List Event) (uri : String) :
    (((after { settings } history).document? uri).isSome ↔
      ∃ before opening later, history = before ++ opening :: later ∧ opening.request.Opens uri ∧
        ∀ e ∈ later, e.request.Keeps uri) ∧
    (∀ d, (after { settings } history).document? uri = some d →
      Remembered settings history uri d) ∧
    ((after { settings } history).document? uri = none → ∀ tree version text,
      (after { settings } history).handle tree (.didChange uri version (some text)) =
        (after { settings } history,
          { published := [], records := [], result := .error (.unknownDocument uri) }) ∧
      (after { settings } history).handle tree (.didSave uri (some text)) =
        (after { settings } history,
          { published := [], records := [], result := .error (.unknownDocument uri) })) :=
  ⟨isSome_document?_after settings history, fun _ => remembered_of_open settings history,
    fun unknown _ version text =>
      ⟨update_of_unknown unknown text (some version), update_of_unknown unknown text none⟩⟩

/-- One document is opened with a function, loses its text but for a parenthesis, and is saved without
a text; another one is opened meanwhile. -/
def edits : List Event :=
  [⟨.empty, .didOpen "file:///a" 1 "(defun f () 1)"⟩, ⟨.empty, .didChange "file:///a" 2 (some "(")⟩,
    ⟨.empty, .didOpen "file:///b" 1 ""⟩, ⟨.empty, .didSave "file:///a" none⟩]

theorem documents_reflect_history_edits :
    (∃ d, (after {} edits).document? "file:///a" = some d ∧
      (d.text, d.version, d.diagnostics.length, d.forms.length) = ("(", 2, 1, 1) ∧
      lastFor? "file:///a" (published {} edits) = some ⟨"file:///a", 2, d.diagnostics⟩) ∧
    (after {} edits).document? "file:///c" = none ∧
    ((after {} edits).handle .empty (.didChange "file:///c" 1 (some ""))).2.result =
      .error (.unknownDocument "file:///c") := by
  have opened : ((after {} edits).document? "file:///a").map
      (fun d => (d.text, d.version, d.diagnostics.length, d.forms.length)) = some ("(", 2, 1, 1) := by
    decide +kernel
  have unknown : (after {} edits).document? "file:///c" = none :=
    Option.isNone_iff_eq_none.1 (by decide +kernel)
  obtain ⟨d, found, known⟩ := Option.map_eq_some_iff.1 opened
  obtain ⟨-, reflects, -⟩ := documents_reflect_history {} edits "file:///a"
  obtain ⟨before, opening, later, -, -, -, -, shown⟩ := reflects d found
  obtain ⟨-, -, fails⟩ := documents_reflect_history {} edits "file:///c"
  have version : d.version = 2 := congrArg (·.2.1) known
  rw [version] at shown
  exact ⟨⟨d, found, known, shown⟩, unknown,
    congrArg (·.2.result) (fails unknown .empty 1 "").1⟩

end LittleLisp.Server
