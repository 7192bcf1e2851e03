import LittleLisp.Command.Program
import LittleLisp.Server.Framing

/-!
# The command line

Reads the files that a run can see, runs the program on them, and writes what it leaves. In a
session with an editor, the settings files around a document are read again for every message.
-/

namespace LittleLisp.Main

/-- The tree with what stands at a path from the root. -/
def look (t : FileTree) (names : List String) : IO FileTree := do
  let path := (← IO.currentDir) / Path.ofNames names
  if ← path.isDir then
    return t.makeDir names
  else if ← path.pathExists then
    return t.write names (Source.ofBytes (← IO.FS.readBinFile path).toList)
  else
    return t

/-- The tree with what decides about the settings of a directory. -/
def lookAround (t : FileTree) (dir : List String) : IO FileTree := do
  let mut t ← look t dir
  for n in List.range (dir.length + 1) do
    t ← look t (dir.take n ++ [Settings.fileName])
    t ← look t (dir.take n ++ [Settings.rootMark])
  return t

/-- What an action sees from a directory. -/
def settingOf (cwd : List String) (paths : List String) : IO Command.Setting := do
  let mut t ← lookAround .empty cwd
  for path in paths do
    let names := Path.absoluteNames cwd path
    t ← look t names.dropLast
    t ← look t names
  return ⟨t, cwd⟩

/-- Writes the files that a run has changed. -/
def save (new old : FileTree) : IO Unit := do
  for (names, text) in new.changedSince old do
    IO.FS.writeBinFile (Path.ofNames names) ⟨text.bytes.toArray⟩

/-- Writes what a run leaves. -/
def finish (w : Command.Setting) (run : Command.Run) : IO UInt32 := do
  IO.print run.stdout
  IO.eprint run.stderr
  save run.tree w.tree
  return run.exitCode.toUInt32

/-- Reads the head of a message: its length, or nothing at the end of the input. -/
partial def readHead (input : IO.FS.Stream) (length : Nat) : IO (Option Nat) := do
  let line ← input.getLine
  if line.isEmpty then
    return none
  else if Server.endsHead line then
    return some length
  else
    readHead input ((Server.lengthOf? line).getD length)

/-- Reads a number of bytes, or as many as there are. -/
partial def readBody (input : IO.FS.Stream) (length : Nat) (done : ByteArray) : IO ByteArray := do
  if done.size < length then
    let bytes ← input.read (length - done.size).toUSize
    if bytes.isEmpty then
      return done
    else
      readBody input length (done ++ bytes)
  else
    return done

/-- The address of the document that a message is about. -/
def addressOf? (message : Json) : Option String :=
  match ((message.field? "params").bind (·.field? "textDocument")).bind (·.field? "uri") with
  | some (.str uri) => some uri
  | _ => none

/-- The files that decide about the settings of the document that a message is about. -/
def treeFor (message : Json) : IO FileTree :=
  match (addressOf? message).map Server.filePathOf with
  | some (.ok path) => lookAround .empty (Path.parentNames path)
  | _ => return .empty

/-- Answers messages up to the end of the input or of the session. -/
partial def serve (input output : IO.FS.Stream) (log : List Record → IO Unit)
    (session : Server.Session) : IO Unit := do
  match ← readHead input 0 with
  | none => log Command.stopRecords
  | some length =>
    let message := Server.messageOf (← readBody input length .empty).toList
    let (session, sent) := session.receive (← treeFor message) message
    log sent.records
    for answer in sent.messages do
      output.putStr (Server.framed answer)
    output.flush
    unless session.exited do
      serve input output log session

/-- A session with an editor on standard input and output. -/
def session (w : Command.Setting) (o : Command.Options) : IO UInt32 := do
  match Command.logTo w o "" with
  | .error e =>
    IO.eprintln e
    return 1
  | .ok run =>
    save run.tree w.tree
    let log ← if o.serverLog = "" then IO.getStderr
      else pure (.ofHandle (← IO.FS.Handle.mk o.serverLog .append))
    let write (records : List Record) : IO Unit := do
      log.putStr (Command.entryText o.debug records)
      log.flush
    let opened := Command.openServer w o
    write opened.records
    match opened.result with
    | .error e =>
      IO.eprint e.lines.toText
      return 1
    | .ok server =>
      serve (← IO.getStdin) (← IO.getStdout) write { server }
      write [Command.closeRecord]
      return 0

/-- Runs the program with its arguments. -/
def run (args : List String) : IO UInt32 := do
  let cwd := Path.absoluteNames [] (← IO.currentDir).toString
  match Command.interpret args with
  | .ok (.serve o) => session (← settingOf cwd (Command.Action.serve o).paths) o
  | .ok action =>
    let w ← settingOf cwd action.paths
    finish w (Command.run w args)
  | .error _ =>
    let w ← settingOf cwd []
    finish w (Command.run w args)

end LittleLisp.Main

/-- Runs the program. -/
def main (args : List String) : IO UInt32 :=
  LittleLisp.Main.run args
