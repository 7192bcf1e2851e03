import LittleLisp.Proofs.Text.Case
import LittleLisp.SymbolTable.OfForms

/-!
# The case of function names

The keyword of a definition, the name that it defines and the heads of calls may be written with
capital letters or without. `Node.uncasedForm` puts the letters of ASCII in all of them into lower
case, so two lists of forms differ only in that case if it takes both to the same forms.

The table of such forms has the names, the parameters and the types of the table of the forms as
they are written, and the bodies without case (`ofForms_uncased`). It finds names alike.

Only the texts of problems, which quote names, may differ. So of results that may fail the values
are compared, and the problems are not.
-/

namespace LittleLisp

/-! ## Trees, definitions and tables without case -/

namespace Node

/-- The members of a form with the head in lower case, if it is an identifier. -/
def uncasedHead : List Node → List Node
  | ident name l :: rest => ident name.toLower l :: rest
  | members => members

mutual

/-- An expression with the heads of its calls in lower case. -/
def uncased : Node → Node
  | call members l => call (uncasedHead (uncasedAll members)) l
  | cond clauses l => cond (uncasedClauses clauses) l
  | int value l => int value l
  | char value l => char value l
  | str value l => str value l
  | ident name l => ident name l

/-- Expressions with the heads of their calls in lower case. -/
def uncasedAll : List Node → List Node
  | [] => []
  | n :: rest => n.uncased :: uncasedAll rest

/-- Clauses with the heads of their calls in lower case. -/
def uncasedClauses : List (Node × Node) → List (Node × Node)
  | [] => []
  | (condition, result) :: rest => (condition.uncased, result.uncased) :: uncasedClauses rest

end

/-- What follows the name of a definition, with the heads of calls after the parameters in lower
case. -/
def uncasedParts : List Node → List Node
  | [] => []
  | params :: rest => params :: rest.map uncased

/-- What follows the keyword of a definition, with the name that it defines in lower case, too. -/
def uncasedMembers : List Node → List Node
  | [] => []
  | ident name l :: parts => ident name.toLower l :: uncasedParts parts
  | other :: parts => other :: uncasedParts parts

/-- A top-level form with its keyword, the name that it defines and the heads of the calls after its
parameters in lower case. -/
def uncasedForm : Node → Node
  | call (ident keyword at_ :: rest) l =>
    call (ident keyword.toLower at_ :: uncasedMembers rest) l
  | other => other

@[simp] theorem uncasedAll_eq (ns : List Node) : uncasedAll ns = ns.map uncased := by
  induction ns with
  | nil => rfl
  | cons n rest ih => rw [uncasedAll, ih, List.map_cons]

@[simp] theorem uncasedClauses_eq (clauses : List (Node × Node)) :
    uncasedClauses clauses = clauses.map fun c => (c.1.uncased, c.2.uncased) := by
  induction clauses with
  | nil => rfl
  | cons c rest ih => rw [uncasedClauses, ih, List.map_cons]

theorem uncased_call_ident (name : String) (at_ l : Location) (args : List Node) :
    (call (ident name at_ :: args) l).uncased =
      call (ident name.toLower at_ :: args.map uncased) l := by
  simp [uncased, uncasedHead]

@[simp] theorem isCatchAll_uncased (n : Node) : n.uncased.isCatchAll = n.isCatchAll := by
  cases n <;> rfl

@[simp] theorem loc_uncased (n : Node) : n.uncased.loc = n.loc := by
  cases n <;> rfl

end Node

namespace Definition

/-- A definition with the heads of the calls in its body in lower case. -/
def uncased (d : Definition) : Definition :=
  { d with body := d.body.map Node.uncased }

variable (d : Definition)

@[simp] theorem uncased_name : d.uncased.name = d.name := rfl
@[simp] theorem uncased_params : d.uncased.params = d.params := rfl
@[simp] theorem uncased_ret : d.uncased.ret = d.ret := rfl
@[simp] theorem uncased_operator : d.uncased.operator = d.operator := rfl
@[simp] theorem uncased_loc : d.uncased.loc = d.loc := rfl
@[simp] theorem uncased_body : d.uncased.body = d.body.map Node.uncased := rfl
@[simp] theorem uncased_signature : d.uncased.signature = d.signature := rfl

@[simp] theorem uncased_isBuiltin : d.uncased.isBuiltin = d.isBuiltin := by
  simp [isBuiltin]

end Definition

namespace SymbolTable

/-- An entry with the heads of the calls in its body in lower case. -/
def Entry.uncased (e : Entry) : Entry :=
  ⟨e.definition.uncased, e.listed⟩

/-- A table with the heads of the calls in all bodies in lower case. -/
def uncased (t : SymbolTable) : SymbolTable :=
  ⟨t.entries.map Entry.uncased⟩

@[simp] theorem Entry.uncased_name (e : Entry) : e.uncased.name = e.name := rfl

@[simp] theorem get?_uncased (t : SymbolTable) (name : String) :
    t.uncased.get? name = (t.get? name).map Definition.uncased := by
  simp only [get?, uncased, List.find?_map, Function.comp_def, Entry.uncased_name, Option.map_map]
  rfl

@[simp] theorem lookup_uncased (t : SymbolTable) (name : String) :
    t.uncased.lookup name = (t.lookup name).map Definition.uncased :=
  get?_uncased t _

/-- A name is found in any case. -/
@[simp] theorem lookup_asciiLower (t : SymbolTable) (name : String) :
    t.lookup name.toLower = t.lookup name := by
  rw [lookup, lookup, Text.toLower_asciiLower]

@[simp] theorem functions_uncased (t : SymbolTable) :
    t.uncased.functions = t.functions.map Definition.uncased := by
  simp only [functions, uncased, List.filter_map, List.map_map]
  rfl

@[simp] theorem signatures_uncased (t : SymbolTable) : t.uncased.signatures = t.signatures := by
  simp [signatures, Function.comp_def]

@[simp] theorem signature?_uncased (t : SymbolTable) (name : String) :
    t.uncased.signature? name = t.signature? name := by
  simp [signature?, Function.comp_def]

theorem entries_uncased (t : SymbolTable) : t.uncased.entries = t.entries.map Entry.uncased := rfl

@[simp] theorem sameTypes_uncased (t u : SymbolTable) :
    t.uncased.sameTypes u.uncased = t.sameTypes u := by
  simp only [sameTypes, entries_uncased, List.length_map, List.all_map]
  congr 2
  funext e
  simp only [Function.comp_apply, Entry.uncased_name, get?_uncased]
  cases u.get? e.name <;> rfl

end SymbolTable

/-! ## Results that may fail -/

/-- Either both computations give a value, the second one the image of the first one's, or both
fail. -/
theorem toOption_eq_map_iff {α β : Type} {f : α → β} {x : Except Problem α} {y : Except Problem β} :
    y.toOption = x.toOption.map f ↔
      (∃ a, x = .ok a ∧ y = .ok (f a)) ∨ ∃ p q, x = .error p ∧ y = .error q := by
  cases x <;> cases y <;> simp [Except.toOption]

theorem toOption_eq_iff {α : Type} {x y : Except Problem α} :
    y.toOption = x.toOption ↔
      (∃ a, x = .ok a ∧ y = .ok a) ∨ ∃ p q, x = .error p ∧ y = .error q := by
  rw [← Option.map_id_apply (x := x.toOption)]
  exact toOption_eq_map_iff

/-- The same step after work that ends alike ends alike. -/
theorem toOption_bind_congr {α β : Type} {x y : Except Problem α}
    (same : y.toOption = x.toOption) (f : α → Except Problem β) :
    (y.bind f).toOption = (x.bind f).toOption := by
  rcases toOption_eq_iff.1 same with ⟨a, rfl, rfl⟩ | ⟨p, q, rfl, rfl⟩
  · rfl
  · rfl

/-! ## Forms -/

namespace Definition

theorem bodyOf_uncased (function : String) (l : Location) (ns : List Node) :
    (bodyOf function l (ns.map Node.uncased)).toOption =
      (bodyOf function l ns).toOption.map Node.uncased := by
  cases ns with
  | nil => rfl
  | cons body rest => cases rest <;> rfl

theorem ofParts_uncased (name : String) (l : Location) (parts : List Node) :
    (ofParts name l (Node.uncasedParts parts)).toOption =
      (ofParts name l parts).toOption.map uncased := by
  cases parts with
  | nil => rfl
  | cons params rest =>
    cases params with
    | int | char | str | ident | cond => rfl
    | call args m =>
      simp only [Node.uncasedParts, ofParts]
      cases paramsOf name [] args with
      | error problem => rfl
      | ok params =>
        simp only
        rcases toOption_eq_map_iff.1 (bodyOf_uncased name l rest) with
          ⟨body, written, written'⟩ | ⟨p, q, fails, fails'⟩
        · simp only [written, written']
          rfl
        · simp only [fails, fails', Except.toOption, Option.map_none]

theorem ofMembers_uncased (l : Location) (members : List Node) :
    (ofMembers l (Node.uncasedMembers members)).toOption =
      (ofMembers l members).toOption.map uncased := by
  cases members with
  | nil => rfl
  | cons first parts =>
    cases first with
    | int | char | str | call | cond => rfl
    | ident name at_ =>
      simp only [Node.uncasedMembers, ofMembers, Text.toLower_asciiLower]
      split
      · rfl
      · exact ofParts_uncased _ l parts

/-- A form defines the function of its name in lower case, in whatever case it is written. -/
theorem ofForm_uncased (form : Node) :
    (ofForm form.uncasedForm).toOption = (ofForm form).toOption.map uncased := by
  cases form with
  | int | char | str | ident | cond => rfl
  | call members l =>
    cases members with
    | nil => rfl
    | cons first rest =>
      cases first with
      | int | char | str | call | cond => rfl
      | ident keyword at_ =>
        have same : isNamed keyword.toLower defunWord = isNamed keyword defunWord :=
          Text.sameFolded_asciiLower keyword defunWord
        simp only [Node.uncasedForm, ofForm, same]
        cases isNamed keyword defunWord with
        | true => exact ofMembers_uncased l rest
        | false => rfl

end Definition

namespace SymbolTable

theorem insert_uncased (t : SymbolTable) (d : Definition) :
    t.uncased.insert d.uncased = (t.insert d).uncased := by
  have entries (es : List Entry) :
      insertEntry d.uncased (es.map Entry.uncased) = (insertEntry d es).map Entry.uncased := by
    induction es with
    | nil => simp [insertEntry, Entry.uncased]
    | cons e rest ih =>
      simp only [List.map_cons, insertEntry, Entry.uncased_name, Definition.uncased_name, ih]
      split <;> rfl
  simp only [insert, uncased, entries]

theorem insertForms_uncased (t : SymbolTable) (forms : List Node) :
    (t.uncased.insertForms (forms.map Node.uncasedForm)).toOption =
      (t.insertForms forms).toOption.map uncased := by
  induction forms generalizing t with
  | nil => rfl
  | cons form rest ih =>
    simp only [List.map_cons, insertForms]
    rcases toOption_eq_map_iff.1 (Definition.ofForm_uncased form) with
      ⟨d, defined, defined'⟩ | ⟨p, q, fails, fails'⟩
    · simp only [defined, defined', insert_uncased]
      exact ih (t.insert d)
    · simp only [fails, fails', Except.toOption, Option.map_none]

theorem ofForms_uncased (forms : List Node) :
    (ofForms (forms.map Node.uncasedForm)).toOption = (ofForms forms).toOption.map uncased :=
  insertForms_uncased library forms

end SymbolTable

end LittleLisp
