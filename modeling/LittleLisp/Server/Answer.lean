import LittleLisp.Server.Document
import LittleLisp.Sorting

/-!
# Answers about documents

What the last text that compiled says about the identifier under the cursor, about the names that
can be written there, and about the functions that are defined.
-/

namespace LittleLisp.Server

/-- What a completion offers. -/
inductive Completion.Kind where
  | function
  | parameter
  | keyword
deriving DecidableEq, Repr

/-- A name that can be written. -/
structure Completion where
  label : String
  kind : Completion.Kind
  detail : String := ""
deriving DecidableEq, Repr

/-- A function that is defined somewhere. -/
structure Symbol where
  name : String
  uri : String
  range : Range
deriving DecidableEq, Repr

/-- What a request is answered with. -/
inductive Result where
  | nothing
  /-- What the server can do. -/
  | abilities
  | hover (line : String) (range : Range)
  | place (uri : String) (range : Range)
  | completions (items : List Completion)
  | symbols (items : List Symbol)
deriving DecidableEq, Repr

/-! ## The identifier under the cursor -/

/-- What is shown about a mention: the type of a parameter, else the signature of a function. -/
def Compiled.lineOf? (k : Compiled) (m : Mention) : Option String :=
  let param := (k.definitionOf? m.form).bind fun d =>
    (d.paramType? m.name).map fun t => m.name ++ " " ++ t.name
  match param with
  | some line => some line
  | none => k.table.signature? m.name

/-- What is shown about the identifier under the cursor. -/
def Document.hover (d : Document) (c : Cursor) : Result :=
  match d.compiled with
  | none => .nothing
  | some k =>
    match mentionAt? k.forms c with
    | none => .nothing
    | some m =>
      match k.lineOf? m with
      | some line => .hover line (Range.ofLocation m.loc)
      | none => .nothing

/-- Where a mention is defined: a parameter of its form, else the last function of its name. -/
def declarationOf? (forms : List Node) (m : Mention) : Option Node.Written :=
  match m.form.defunParam? m.name with
  | some w => some w
  | none => ((forms.filterMap Node.defunName?).filter fun w => isNamed w.name m.name).getLast?

/-- Where the identifier under the cursor is defined. -/
def Document.definition (d : Document) (uri : String) (c : Cursor) : Result :=
  match (mentionAt? d.forms c).bind (declarationOf? d.forms) with
  | some w => .place uri (Range.ofLocation w.loc)
  | none => .nothing

/-! ## Completion -/

/-- A function as a completion. -/
def Completion.ofDefinition (d : Definition) : Completion :=
  ⟨d.name, .function, d.signature⟩

/-- A parameter as a completion. -/
def Completion.ofParam (p : Param) : Completion :=
  ⟨p.name, .parameter, p.type.name⟩

/-- The words of the language. -/
def keywords : List String :=
  [defunWord, condWord, trueWord, nilWord]

/-- The parameters of the functions around the cursor. -/
def Compiled.paramsAt (k : Compiled) (c : Cursor) : List Param :=
  (k.forms.filter fun form => (Range.ofLocation form.loc).contains c).flatMap fun form =>
    ((k.definitionOf? form).map Definition.params).getD []

/-- The names that can be written at the cursor, in the order of their labels: functions, words of
the language and parameters. -/
def Document.completions (d : Document) (c : Cursor) : List Completion :=
  let table := (d.compiled.map (·.table)).getD SymbolTable.library
  let params := (d.compiled.map (·.paramsAt c)).getD []
  let items := (table.builtins ++ table.functions).map Completion.ofDefinition ++
    keywords.map (⟨·, .keyword, ""⟩) ++ params.map Completion.ofParam
  items.mergeSort fun a b => decide (a.label ≤ b.label)

/-! ## Symbols -/

/-- A text holds another one. -/
def holds (piece : List Char) : List Char → Bool
  | [] => piece.isEmpty
  | c :: rest => piece.isPrefixOf (c :: rest) || holds piece rest

/-- A name matches a query in any case. -/
def matchesQuery (query name : String) : Bool :=
  holds (Text.toLower query).toList (Text.toLower name).toList

/-- The functions of a document that match a query. -/
def Document.symbols (d : Document) (uri query : String) : List Symbol :=
  ((d.forms.filterMap Node.defunName?).filter fun w => matchesQuery query w.name).map fun w =>
    ⟨w.name, uri, Range.ofLocation w.loc⟩

/-- Symbols are ordered by name, then by document, then by line. -/
def Symbol.order (a b : Symbol) : Ordering :=
  (compare a.name b.name).then
    ((compare a.uri b.uri).then (compare a.range.start.line b.range.start.line))

/-- Symbols in their order. -/
def sortSymbols (symbols : List Symbol) : List Symbol :=
  Sorting.sort (fun a b => (a.order b).isLT) symbols

/-! ## Answers in JSON -/

/-- The number of a kind of completion. -/
def Completion.Kind.code : Completion.Kind → Int
  | function => 3
  | parameter => 6
  | keyword => 14

/-- A completion in JSON. -/
def Completion.toJson (i : Completion) : Json :=
  Json.ofFields [("label", some (.str i.label)), ("kind", some (.int i.kind.code)),
    ("detail", Json.str? i.detail)]

/-- A place in a document in JSON. -/
def placeJson (uri : String) (r : Range) : Json :=
  .obj [("uri", .str uri), ("range", r.toJson)]

/-- A symbol in JSON; all symbols are functions. -/
def Symbol.toJson (s : Symbol) : Json :=
  .obj [("name", .str s.name), ("kind", .int 12), ("location", placeJson s.uri s.range)]

/-- What the server can do, in JSON. Documents are always sent as a whole. -/
def abilitiesJson : Json :=
  .obj [
    ("capabilities", .obj [
      ("textDocumentSync", .int 1),
      ("completionProvider", .obj [("triggerCharacters", .arr [.str "("])]),
      ("definitionProvider", .bool true),
      ("hoverProvider", .bool true),
      ("workspaceSymbolProvider", .bool true)]),
    ("serverInfo", .obj [("name", .str "lili")])]

/-- An answer in JSON. -/
def Result.toJson : Result → Json
  | nothing => .null
  | abilities => abilitiesJson
  | hover line range => .obj [
      ("contents", .obj [
        ("kind", .str "markdown"),
        ("value", .str ("```lisp\n" ++ line ++ "\n```"))]),
      ("range", range.toJson)]
  | place uri range => placeJson uri range
  | completions items => .arr (items.map Completion.toJson)
  | symbols items => .arr (items.map Symbol.toJson)

end LittleLisp.Server
