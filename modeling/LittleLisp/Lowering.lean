import LittleLisp.C.Expr
import LittleLisp.C.Name
import LittleLisp.Settings

/-!
# Lowering

Every function of the program becomes a C function. Calls of the library become operators, choices
and runtime calls; a choice on an integer constant is made here. A conditional that is a whole body
becomes a cascade of returns; elsewhere it becomes nested choices, and its last clause has to catch
every case.
-/

namespace LittleLisp

namespace Lowering

/-- The C name of a source name. -/
def spell (s : Settings) (name : String) : String :=
  if s.mangle then C.spell name else name

/-- The C type of a type. A function that gives no value at all has the type of any value. -/
def typeName (s : Settings) : ValueType → String
  | .integer => "int"
  | .char => "char"
  | .string => s.types.string
  | .list => s.types.list
  | .any | .nothing => s.types.any

/-- All values of a list of results; the first problem decides. -/
def gather {α : Type} : List (Except Problem α) → Except Problem (List α)
  | [] => .ok []
  | .error problem :: _ => .error problem
  | .ok a :: rest =>
    match gather rest with
    | .ok as => .ok (a :: as)
    | .error problem => .error problem

/-- An integer constant as the first of some trees. -/
def leadingInt? : List Node → Option Int
  | .int value _ :: _ => some value
  | _ => none

/-- The last clause of a conditional catches every case. -/
def isClosed : List (Node × Node) → Bool
  | [] => false
  | [(condition, _)] => condition.isCatchAll
  | _ :: next :: rest => isClosed (next :: rest)

/-- A call of a library operator on arguments that have been lowered. -/
def operatorCall (d : Definition) (l : Location) (args : List C.Expr) :
    Except Problem C.Expr :=
  match d.operator, args with
  | some .choice, condition :: yes :: no :: _ => .ok (.choice condition yes no)
  | some (.binary op), left :: right :: _ => .ok (.binary op left right)
  | some (.list op), _ => .ok (.call op.runtimeName args)
  | _, _ => .error ((Fault.unsupported d.name).at l)

/-- A call of a library operator. Only the branch that is taken of a choice on a constant counts. -/
def builtinCall (d : Definition) (l : Location) (args : List Node)
    (lowered : List (Except Problem C.Expr)) : Except Problem C.Expr :=
  if args.length ≠ d.params.length then
    .error ((Fault.operatorArity d.name d.params.length args.length).at l)
  else
    match d.operator, leadingInt? args, lowered with
    | some .choice, some value, _ :: yes :: more =>
      if value ≠ 0 then yes else more.headD (.error ((Fault.unsupported d.name).at l))
    | _, _, _ =>
      match gather lowered with
      | .ok es => operatorCall d l es
      | .error problem => .error problem

mutual

/-- Lowers an expression. -/
def expr (t : SymbolTable) (s : Settings) : Node → Except Problem C.Expr
  | .int value _ => .ok (.int value)
  | .char value _ => .ok (.char value)
  | .str value _ => .ok (.str value)
  | .ident name _ => .ok (.ident (spell s name))
  | .cond clauses l =>
    if isClosed clauses then choices t s clauses else .error (Fault.openCond.at l)
  | .call (.ident name at_ :: args) l =>
    match t.lookup name with
    | none => .error ((Fault.unknownSymbol name).at at_)
    | some d =>
      if d.isBuiltin then builtinCall d l args (exprs t s args)
      else
        match gather (exprs t s args) with
        | .ok es => .ok (.call (spell s d.name) es)
        | .error problem => .error problem
  | .call members l => .error ((Fault.notCall (.call members l)).at l)

/-- Lowers expressions, each by itself. -/
def exprs (t : SymbolTable) (s : Settings) : List Node → List (Except Problem C.Expr)
  | [] => []
  | n :: rest => expr t s n :: exprs t s rest

/-- Lowers clauses to nested choices, the last one first. -/
def choices (t : SymbolTable) (s : Settings) : List (Node × Node) → Except Problem C.Expr
  | [] => .error ⟨.openCond, none⟩
  | [(_, result)] => expr t s result
  | (condition, result) :: next :: rest =>
    match choices t s (next :: rest) with
    | .error problem => .error problem
    | .ok no =>
      match expr t s condition with
      | .error problem => .error problem
      | .ok c =>
        match expr t s result with
        | .error problem => .error problem
        | .ok yes => .ok (.choice c yes no)

end

/-- Lowers the clauses of a body, each condition before its result. -/
def clauses (t : SymbolTable) (s : Settings) :
    List (Node × Node) → Except Problem (List (C.Expr × C.Expr))
  | [] => .ok []
  | (condition, result) :: rest =>
    match expr t s condition with
    | .error problem => .error problem
    | .ok c =>
      match expr t s result with
      | .error problem => .error problem
      | .ok r =>
        match clauses t s rest with
        | .error problem => .error problem
        | .ok cs => .ok ((c, r) :: cs)

/-- Lowers the body of the function `name`. -/
def body (t : SymbolTable) (s : Settings) (name : String) : Node → Except Problem C.Body
  | .cond cs _ =>
    match clauses t s cs with
    | .error problem => .error problem
    | .ok lowered =>
      let caught := cs.any fun c => c.1.isCatchAll
      .ok (.cascade lowered (if s.fallback = .trap && !caught then some name else none))
  | other =>
    match expr t s other with
    | .ok e => .ok (.value e)
    | .error problem => .error problem

/-- Refuses a source name whose C name is a word of C or belongs to the runtime. -/
def checkName (s : Settings) (source : String) (l : Option Location) : Except Problem Unit :=
  let name := spell s source
  if C.keywords.contains name then .error ⟨.keywordName source name, l⟩
  else if C.isRuntimeName name || name == s.types.string || name == s.types.list ||
      name == s.types.any then
    .error ⟨.runtimeName source name, l⟩
  else .ok ()

/-- C names that are taken, each with the source name that holds it. -/
abbrev Taken := List (String × String)

/-- Takes a C name for a source name; it must not be held by another one. -/
def reserve (taken : Taken) (source name : String) (l : Option Location) : Except Problem Taken :=
  match taken.lookup name with
  | some holder =>
    if holder = source then .ok taken else .error ⟨.takenName source name holder, l⟩
  | none => .ok ((name, source) :: taken)

/-- Lowers parameters to C types and names. -/
def params (s : Settings) (l : Option Location) (taken : Taken) :
    List Param → Except Problem (List (String × String))
  | [] => .ok []
  | p :: rest =>
    match checkName s p.name l with
    | .error problem => .error problem
    | .ok () =>
      let name := spell s p.name
      match reserve taken p.name name l with
      | .error problem => .error problem
      | .ok taken =>
        match params s l taken rest with
        | .error problem => .error problem
        | .ok ps => .ok ((typeName s p.type, name) :: ps)

/-- Lowers a function of the program; operators of the library have no C function. -/
def function? (t : SymbolTable) (s : Settings) (d : Definition) :
    Except Problem (Option C.Function) :=
  match d.body with
  | none => .ok none
  | some source =>
    match checkName s d.name d.loc with
    | .error problem => .error problem
    | .ok () =>
      match params s d.loc [] d.params with
      | .error problem => .error problem
      | .ok ps =>
        match body t s d.name source with
        | .error problem => .error problem
        | .ok b => .ok (some ⟨typeName s d.ret, spell s d.name, ps, b⟩)

/-- Lowers functions in order; their C names have to differ. -/
def functionsFrom (t : SymbolTable) (s : Settings) (taken : Taken) :
    List Definition → Except Problem (List (Definition × C.Function))
  | [] => .ok []
  | d :: rest =>
    match reserve taken d.name (spell s d.name) d.loc with
    | .error problem => .error problem
    | .ok taken =>
      match function? t s d with
      | .error problem => .error problem
      | .ok lowered =>
        match functionsFrom t s taken rest with
        | .error problem => .error problem
        | .ok fs =>
          match lowered with
          | some f => .ok ((d, f) :: fs)
          | none => .ok fs

/-- Lowers every function of the program. -/
def functions (t : SymbolTable) (s : Settings) : Except Problem (List (Definition × C.Function)) :=
  functionsFrom t s [] t.functions

end Lowering

end LittleLisp
