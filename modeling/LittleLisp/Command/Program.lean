import LittleLisp.Command.Offer
import LittleLisp.Command.Perform
import LittleLisp.Server.Session

/-!
# The program

A run of the program, from its arguments to what it leaves: an exit status, what it writes to
standard output and standard error, and the files.
-/

namespace LittleLisp.Command

/-- What a run leaves. -/
structure Run where
  exitCode : Nat := 0
  stdout : String := ""
  stderr : String := ""
  tree : FileTree

/-- The text of a failure without styling, on lines of its own. -/
def Failure.lines (f : Failure) : Source :=
  Terminal.strip (f.text ++ Source.ofString "\n")

/-- Standard error without styling: the lines of a log, and a failure at the end. -/
def errorText (log : String) (failure : Option Failure) : String :=
  let ending := match failure with
    | none => Source.ofString ""
    | some f => f.lines
  (Terminal.strip (Source.ofString log ++ ending)).toText

/-- Whether records for debugging are shown. -/
def Action.debug : Action → Bool
  | help | version | offer _ _ => false
  | serve o | compile o _ | check o _ | parse o _ => o.debug

/-- The paths that an action reads or writes. -/
def Action.paths : Action → List String
  | help | version | offer _ _ => []
  | serve o => if o.serverLog = "" then [] else [o.serverLog]
  | compile o paths => (if o.output = "" then paths.map outputPath else [o.output]) ++ paths
  | check _ paths => paths
  | parse _ path => [path]

/-- What an action does with files. The language server does its work in a session, and the other
actions only say something about the program. -/
def perform (w : Setting) : Action → Outcome
  | .help | .version | .offer _ _ | .serve _ => { tree := w.tree }
  | .compile o paths => compile w o paths
  | .check o paths => check w o paths
  | .parse o path => parse w o path

/-- The record that the language server starts. -/
def startRecord : Record :=
  ⟨.info, "starting LSP server", []⟩

/-- The records that the language server leaves at the end of its input. -/
def stopRecords : List Record :=
  [⟨.debug, "Server signaled to stop with err=EOF", []⟩,
    ⟨.debug, "Error reading from client: EOF", []⟩]

/-- The record that the language server has ended. -/
def closeRecord : Record :=
  ⟨.info, "LSP server closed", [("error", "<nil>")]⟩

/-- The lines of the language server's records that are shown. -/
def entryText (debug : Bool) (records : List Record) : String :=
  String.join ((records.filter fun r => debug || r.level != .debug).map Record.entry)

/-- The server of a session, with the settings that govern the working directory. -/
def openServer (w : Setting) (o : Options) : Logged Failure Server :=
  let loaded := settingsFor w o
  match loaded.result with
  | .ok settings => ⟨loaded.records ++ [startRecord], .ok { settings }⟩
  | .error e => ⟨loaded.records, .error e⟩

/-- Where the records of the language server go: to the end of standard error, or to a file that is
made anew. -/
def logTo (w : Setting) (o : Options) (log : String) : Except String Run :=
  if o.serverLog = "" then .ok { tree := w.tree, stderr := log }
  else
    match w.tree.create w.cwd o.serverLog (Source.ofString log) with
    | .ok tree => .ok { tree }
    | .error e => .error ("open lsp log: " ++ e)

/-- A session whose input ends at once. -/
def serveNothing (w : Setting) (o : Options) : Run :=
  let opened := openServer w o
  let ending := match opened.result with
    | .ok _ => stopRecords ++ [closeRecord]
    | .error _ => []
  match logTo w o (entryText o.debug (opened.records ++ ending)) with
  | .error e => { exitCode := 1, stderr := errorText "" (some (.message e)), tree := w.tree }
  | .ok run =>
    match opened.result with
    | .ok _ => { run with stderr := errorText run.stderr none }
    | .error e => { run with exitCode := 1, stderr := errorText run.stderr (some e) }

/-- A run of the program with nothing to read on standard input. -/
def run (w : Setting) (args : List String) : Run :=
  match interpret args with
  | .error e =>
    { exitCode := 1, stderr := errorText "" (some (.message e)), tree := w.tree }
  | .ok .help => { stdout := usageText, tree := w.tree }
  | .ok .version => { stdout := versionText, tree := w.tree }
  | .ok (.offer described typed) =>
    let (offers, described) := Suite.whole.offers described typed
    { stdout := Terminal.plain (offers.text described)
      stderr := (Terminal.strip offers.notes).toText
      tree := w.tree }
  | .ok (.serve o) => serveNothing w o
  | .ok action =>
    let done := perform w action
    { exitCode := if done.failure.isNone then 0 else 1
      stdout := Terminal.plain done.stdout
      stderr := errorText (styledLog action.debug done.records) done.failure
      tree := done.tree }

end LittleLisp.Command
