import LittleLisp.Command.Dispatch
import LittleLisp.Command.Grid
import LittleLisp.Settings.Search
import LittleLisp.Tree.Outline

/-!
# What commands do

A command sees a tree of files from a working directory. What it does is a value: the text that it
writes, the records that it leaves, the tree afterwards, and how it failed, if it did.
-/

namespace LittleLisp.Command

/-- What a command sees. -/
structure Setting where
  tree : FileTree
  cwd : List String

/-- How a command fails. -/
inductive Failure where
  | report (report : Report)
  /-- The settings file that governs the working directory cannot be used. -/
  | settings (error : Settings.LoadError)
  | message (text : String)
deriving Repr

/-- The text of a failure, styled. -/
def Failure.text : Failure → Source
  | report r => r.styled
  | settings e => Source.ofString ("failed to load " ++ Settings.fileName ++ ": " ++ e.message)
  | message text => Source.ofString text

/-- What a command does. -/
structure Outcome where
  stdout : String := ""
  records : List Record := []
  tree : FileTree
  failure : Option Failure := none

/-- Settings with the choices of the command line. -/
def override (s : Settings) (o : Options) : Settings :=
  { s with header := o.header.getD s.header, maxRounds := o.maxRounds.getD s.maxRounds }

/-- The settings of a command: those that govern the working directory, with the choices of the
command line. -/
def settingsFor (w : Setting) (o : Options) : Logged Failure Settings :=
  match Settings.find w.tree w.cwd with
  | .error e => ⟨[], .error (.settings e)⟩
  | .ok found =>
    let records := match found with
      | some f => [⟨.debug, "loaded config", [("path", f.path)]⟩]
      | none => []
    let s := override (found.elim {} (·.settings)) o
    match s.flaw? with
    | some flaw => ⟨records, .error (.message flaw.message)⟩
    | none => ⟨records, .ok s⟩

/-- The record of a unit whose types may not be final. -/
def limitRecords (path : String) (u : CompiledUnit) : List Record :=
  if u.converged then []
  else [⟨.warn, "inference hit the round limit; types may be imprecise",
    [("file", path), ("rounds", toString u.rounds)]⟩]

/-- Compiles one file. -/
def compileFile (w : Setting) (s : Settings) (path : String) : Logged Failure CompiledUnit :=
  match w.tree.read w.cwd path with
  | .error e => ⟨[], .error (.message e)⟩
  | .ok source =>
    let work := CompiledUnit.compile path source s
    match work.result with
    | .error report => ⟨work.records, .error (.report report)⟩
    | .ok u => ⟨work.records ++ limitRecords path u, .ok u⟩

/-- Compiles files. All of them are compiled; the first that fails decides the failure. -/
def compileFiles (w : Setting) (s : Settings) : List String → Logged Failure (List CompiledUnit)
  | [] => ⟨[], .ok []⟩
  | path :: rest =>
    let first := compileFile w s path
    let others := compileFiles w s rest
    let result := match first.result with
      | .error e => .error e
      | .ok u =>
        match others.result with
        | .error e => .error e
        | .ok us => .ok (u :: us)
    ⟨first.records ++ others.records, result⟩

/-- The settings of a command and the units of its files. -/
def prepare (w : Setting) (o : Options) (paths : List String) :
    Logged Failure (List CompiledUnit) :=
  let loaded := settingsFor w o
  match loaded.result with
  | .error e => ⟨loaded.records, .error e⟩
  | .ok s =>
    let work := compileFiles w s paths
    ⟨loaded.records ++ work.records, work.result⟩

/-- The path of the C text of a source. -/
def outputPath (source : String) : String :=
  Path.withExtension source ".c"

/-- The name of standard output in place of a path. -/
def standardOutput : String := "-"

/-- Where the C text of a source goes: to the path that was chosen, or beside the source. It never
goes to the path of the source itself. -/
def destination (chosen source : String) : Except String String :=
  let path := if chosen = "" then outputPath source else chosen
  if path ≠ standardOutput ∧ Path.clean path = Path.clean source then
    .error ("refusing to overwrite source file " ++ source)
  else .ok path

/-- The record of a unit that was written. -/
def writtenRecord (u : CompiledUnit) (path : String) : Record :=
  ⟨.info, "compiled", [("source", u.file), ("output", path),
    ("functions", toString u.functions.length)]⟩

/-- Writes one unit. -/
def writeUnit (cwd : List String) (chosen : String) (done : Outcome) (u : CompiledUnit) : Outcome :=
  match destination chosen u.file with
  | .error e => { done with failure := some (.message e) }
  | .ok path =>
    if path = standardOutput then { done with stdout := done.stdout ++ u.text }
    else
      match done.tree.create cwd path (Source.ofString u.text) with
      | .error e => { done with failure := some (.message ("create output: " ++ e)) }
      | .ok tree => { done with tree, records := done.records ++ [writtenRecord u path] }

/-- Writes units in order, up to the first failure. -/
def writeUnits (cwd : List String) (chosen : String) (done : Outcome) :
    List CompiledUnit → Outcome
  | [] => done
  | u :: rest =>
    let next := writeUnit cwd chosen done u
    match next.failure with
    | some _ => next
    | none => writeUnits cwd chosen next rest

/-- Compiles files to C. -/
def compile (w : Setting) (o : Options) (paths : List String) : Outcome :=
  if o.output ≠ "" ∧ 1 < paths.length then
    { tree := w.tree
      failure := some (.message ("--output requires a single input file, got " ++
        toString paths.length)) }
  else
    let work := prepare w o paths
    match work.result with
    | .error e => { tree := w.tree, records := work.records, failure := some e }
    | .ok units => writeUnits w.cwd o.output { tree := w.tree, records := work.records } units

/-- Compiles files and shows the signatures of their functions. -/
def check (w : Setting) (o : Options) (paths : List String) : Outcome :=
  let work := prepare w o paths
  match work.result with
  | .error e => { tree := w.tree, records := work.records, failure := some e }
  | .ok units =>
    { tree := w.tree, records := work.records
      stdout := "\n".intercalate (units.map signaturesText) }

/-- Shows the trees of a file. -/
def parse (w : Setting) (o : Options) (path : String) : Outcome :=
  match w.tree.read w.cwd path with
  | .error e => { tree := w.tree, failure := some (.message e) }
  | .ok source =>
    match Node.parse path source with
    | .error problem =>
      { tree := w.tree, failure := some (.report ((Report.bare problem).attach source)) }
    | .ok forms =>
      let show_ (n : Node) := (if o.sexp then n.text else n.dump) ++ "\n"
      { tree := w.tree, stdout := String.join (forms.map show_) }

/-- The lines of the records that are shown, with styles: those for debugging only if asked for. -/
def styledLog (debug : Bool) (records : List Record) : String :=
  String.join ((records.filter fun r => debug || r.level != .debug).map Record.line)

/-- The lines of the records that are shown, without styles. -/
def logText (debug : Bool) (records : List Record) : String :=
  Terminal.plain (styledLog debug records)

/-- The version of the program. -/
def versionText : String :=
  Verb.programName ++ " version v0.1.0\n"

/-- How the program is used. -/
def usageText : String :=
  "Usage: lili [flags] -- file.ll...\n       lili check [flags] file.ll...\n" ++
    "       lili parse [flags] file.ll\n"

end LittleLisp.Command
