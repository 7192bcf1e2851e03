import LittleLisp.Lowering
import LittleLisp.Record
import LittleLisp.Report
import LittleLisp.Tree.Reader
import LittleLisp.Validation

/-!
# Compiled units

One source file becomes one C unit: the runtime header, the prototypes of all functions, and their
definitions. Compiling reads the source, builds the table, infers types, validates every call and
lowers every function; the first problem ends it. Log records come along with the result.
-/

namespace LittleLisp

/-- A compiled source file. -/
structure CompiledUnit where
  file : String
  header : String
  table : SymbolTable
  functions : List (Definition × C.Function)
  rounds : Nat
  converged : Bool
deriving Repr

namespace CompiledUnit

/-- The C text of a unit. -/
def text (u : CompiledUnit) : String :=
  let functions := u.functions.map (·.2)
  "#include <" ++ u.header ++ ">\n\n" ++
    String.join (functions.map fun f => f.prototype ++ ";\n") ++
    (if functions.isEmpty then "" else "\n") ++
    String.join (functions.map fun f => f.text ++ "\n")

end CompiledUnit

/-- What a piece of work gives, and the records that it leaves. -/
structure Logged (ε α : Type) where
  records : List Record
  result : Except ε α

namespace Inference.Result

/-- The record of one round. -/
def roundRecord (round : Nat) (changed : Bool) : Record :=
  ⟨.debug, "inference round", [("round", toString round), ("changed", toString changed)]⟩

/-- The records of inference: every round but a last one that settles things changes something. -/
def records (r : Result) : List Record :=
  (List.range r.rounds).map (fun i => roundRecord (i + 1) (i + 1 < r.rounds || !r.converged)) ++
    if r.converged then []
    else [⟨.warn, "type inference did not converge", [("rounds", toString r.rounds)]⟩]

end Inference.Result

namespace CompiledUnit

/-- The record of an inferred signature. -/
def signatureRecord (d : Definition) : Record :=
  ⟨.debug, "inferred", [("signature", d.signature)]⟩

/-- Validates and lowers a table with inferred types. -/
def ofInferred (r : Inference.Result) (s : Settings) (file : String) :
    Except Problem CompiledUnit :=
  match Validation.validate r.table with
  | .error problem => .error problem
  | .ok () =>
    match Lowering.functions r.table s with
    | .error problem => .error problem
    | .ok functions => .ok ⟨file, s.header, r.table, functions, r.rounds, r.converged⟩

/-- The record that ends a successful compilation. -/
def loweredRecords : Except Problem CompiledUnit → List Record
  | .ok u => [⟨.debug, "lowered functions", [("count", toString u.functions.length)]⟩]
  | .error _ => []

/-- Compiles the trees of a file. -/
def ofForms (file : String) (forms : List Node) (s : Settings) : Logged Problem CompiledUnit :=
  match s.flaw? with
  | some flaw => ⟨[], .error ⟨.settings flaw.message, none⟩⟩
  | none =>
    match SymbolTable.ofForms forms with
    | .error problem => ⟨[], .error problem⟩
    | .ok table =>
      let inferred := Inference.infer table s.maxRounds
      let result := ofInferred inferred s file
      ⟨inferred.records ++ inferred.table.functions.map signatureRecord ++ loweredRecords result,
        result⟩

/-- Compiles a source. Problems are shown against it. -/
def compile (file : String) (source : Source) (s : Settings) : Logged Report CompiledUnit :=
  match Node.parse file source with
  | .error problem => ⟨[], .error ((Report.bare problem).attach source)⟩
  | .ok forms =>
    let work := ofForms file forms s
    ⟨work.records, work.result.mapError fun problem => (Report.bare problem).attach source⟩

end CompiledUnit

end LittleLisp
