import LittleLisp.Path
import LittleLisp.Source

/-!
# File trees

The files and directories that a command sees. A directory exists if it was made or if something is
in it. Paths are looked up name by name: everything before the last name has to be a directory.
-/

namespace LittleLisp

/-- Files with their texts, and directories, each by the names on the way from the root. -/
structure FileTree where
  files : List (List String × Source)
  dirs : List (List String)
deriving Repr

/-- Why a file cannot be opened. -/
inductive FileError where
  | missing
  | notDirectory
  | isDirectory
  | invalid
  | longName
deriving DecidableEq, Repr

/-- What is said about a file that cannot be opened. -/
def FileError.message : FileError → String
  | missing => "no such file or directory"
  | notDirectory => "not a directory"
  | isDirectory => "is a directory"
  | invalid => "invalid argument"
  | longName => "file name too long"

/-- What stands at a path. -/
inductive FileTree.Kind where
  | file (text : Source)
  | directory
deriving DecidableEq, Repr

namespace FileTree

/-- No files at all. -/
def empty : FileTree :=
  ⟨[], []⟩

/-- What stands at the names on the way from the root. -/
def kind? (t : FileTree) (names : List String) : Option Kind :=
  match t.files.lookup names with
  | some text => some (.file text)
  | none =>
    if names.isEmpty || t.dirs.any (names.isPrefixOf ·) ||
        t.files.any fun f => names.isPrefixOf f.1 then
      some .directory
    else none

/-- Something stands at the names on the way from the root. -/
def exists? (t : FileTree) (names : List String) : Bool :=
  (t.kind? names).isSome

/-- The tree with a file. -/
def write (t : FileTree) (names : List String) (text : Source) : FileTree :=
  { t with files := (names, text) :: t.files.filter (·.1 ≠ names) }

/-- The tree with a directory. -/
def makeDir (t : FileTree) (names : List String) : FileTree :=
  { t with dirs := names :: t.dirs }

/-- The tree without a file or directory and all that is in it. The directory that it was in
stays. -/
def remove (t : FileTree) (names : List String) : FileTree :=
  let around := if t.exists? names then [names.dropLast] else []
  { files := t.files.filter fun f => !names.isPrefixOf f.1
    dirs := around ++ t.dirs.filter fun d => !names.isPrefixOf d }

/-- Goes on from the directory `here` along the names of a path. -/
def resolveFrom (t : FileTree) (here : List String) :
    List String → Except FileError (List String)
  | [] => .ok here
  | name :: rest =>
    match t.kind? here with
    | none => .error .missing
    | some (.file _) => .error .notDirectory
    | some .directory =>
      if name = "" ∨ name = "." then resolveFrom t here rest
      else if name = ".." then resolveFrom t here.dropLast rest
      else if 255 < name.utf8ByteSize then .error .longName
      else resolveFrom t (here ++ [name]) rest

/-- The first length of a path, in bytes, that is too long. -/
def pathLimit : Nat := 4096

/-- What is wrong with the text of a path, whatever files there are. -/
def pathError? (path : String) : Option FileError :=
  if path = "" then some .missing
  else if path.toList.contains (Char.ofNat 0) then some .invalid
  else if pathLimit ≤ path.utf8ByteSize then some .longName
  else none

/-- The directory from which a path leads on. -/
def startOf (cwd : List String) (path : String) : List String :=
  if Path.isAbsolute path then [] else cwd

/-- The names on the way from the root to a path, seen from the directory `cwd`. -/
def resolve (t : FileTree) (cwd : List String) (path : String) : Except FileError (List String) :=
  match pathError? path with
  | some e => .error e
  | none => resolveFrom t (startOf cwd path) (Path.split path)

/-- The text of a file, or how opening and reading it fails. -/
def read (t : FileTree) (cwd : List String) (path : String) : Except String Source :=
  match t.resolve cwd path with
  | .error e => .error ("open " ++ path ++ ": " ++ e.message)
  | .ok names =>
    match t.kind? names with
    | some (.file text) => .ok text
    | some .directory => .error ("read " ++ path ++ ": " ++ FileError.isDirectory.message)
    | none => .error ("open " ++ path ++ ": " ++ FileError.missing.message)

/-- Where a file `name` can be written in a directory: no directory has its place. Slashes after the
name ask for a directory, which a file is not. -/
def creatableIn (t : FileTree) (dir : List String) (name : String) (slashed : Bool) :
    Except FileError (List String) :=
  match t.kind? dir with
  | none => .error .missing
  | some (.file _) => .error .notDirectory
  | some .directory =>
    if name = "." ∨ name = ".." ∨ slashed then .error .isDirectory
    else if 255 < name.utf8ByteSize then .error .longName
    else if t.kind? (dir ++ [name]) = some .directory then .error .isDirectory
    else .ok (dir ++ [name])

/-- Where a file can be written. What leads to its directory is looked at first. -/
def creatable (t : FileTree) (cwd : List String) (path : String) :
    Except FileError (List String) :=
  match pathError? path with
  | some e => .error e
  | none =>
    let reversed := (Path.split path).reverse
    match reversed.dropWhile (· == "") with
    | [] => .error .isDirectory
    | name :: before =>
      match resolveFrom t (startOf cwd path) before.reverse with
      | .error e => .error e
      | .ok dir => t.creatableIn dir name (reversed.head? == some "")

/-- The tree with a file in place of any that was there, or how creating it fails. -/
def create (t : FileTree) (cwd : List String) (path : String) (text : Source) :
    Except String FileTree :=
  match t.creatable cwd path with
  | .ok names => .ok (t.write names text)
  | .error e => .error ("open " ++ path ++ ": " ++ e.message)

/-- The files of `t` that are not the same in `old`. -/
def changedSince (t old : FileTree) : List (List String × Source) :=
  t.files.filter fun f => old.files.lookup f.1 ≠ some f.2

end FileTree

end LittleLisp
