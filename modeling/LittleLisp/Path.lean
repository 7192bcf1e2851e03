/-!
# Paths

File paths as text, with slashes between the names of directories, and as lists of names.
-/

namespace LittleLisp.Path

/-- The pieces of a text between slashes. -/
def splitChars : List Char → List (List Char)
  | [] => [[]]
  | c :: rest =>
    if c = '/' then [] :: splitChars rest
    else match splitChars rest with
      | [] => [[c]]
      | piece :: more => (c :: piece) :: more

/-- The names of a path between slashes; some may be empty. -/
def split (path : String) : List String :=
  (splitChars path.toList).map String.ofList

/-- A path that starts at the root. -/
def isAbsolute (path : String) : Bool :=
  path.toList.head? == some '/'

/-- Takes one name of a path: nothing and `.` stay, `..` goes back. The names so far are `done`,
last first; a path from the root never goes back beyond it. -/
def cleanStep (rooted : Bool) (done : List String) (name : String) : List String :=
  if name = "" ∨ name = "." then done
  else if name = ".." then
    match done with
    | [] => if rooted then [] else [".."]
    | last :: before => if last = ".." then ".." :: done else before
  else name :: done

/-- The names of a path without detours. -/
def cleanNames (rooted : Bool) (names : List String) : List String :=
  (names.foldl (cleanStep rooted) []).reverse

/-- The text of names with slashes between them. -/
def joinNames (names : List String) : String :=
  "/".intercalate names

/-- The text of a path from the root. -/
def ofNames (names : List String) : String :=
  "/" ++ joinNames names

/-- The shortest path that means the same. -/
def clean (path : String) : String :=
  let rooted := isAbsolute path
  let names := cleanNames rooted (split path)
  if rooted then ofNames names
  else if names.isEmpty then "."
  else joinNames names

/-- The names of a path from the root, where a relative path starts at the directory `cwd`. -/
def absoluteNames (cwd : List String) (path : String) : List String :=
  if isAbsolute path then cleanNames true (split path)
  else cleanNames true (cwd ++ split path)

/-- The last name of a path. -/
def base (path : String) : String :=
  if path = "" then "."
  else
    match (split path).reverse.dropWhile (· == "") with
    | [] => "/"
    | name :: _ => name

/-- The names of the directory that a path from the root is in. -/
def parentNames (path : String) : List String :=
  cleanNames true (split path).dropLast

/-- The last extension of a path's last name, with its point; what stands after the last point. -/
def extension (path : String) : List Char :=
  match (splitChars path.toList).getLast? with
  | none => []
  | some name =>
    if name.contains '.' then '.' :: (name.reverse.takeWhile (· ≠ '.')).reverse else []

/-- A path with another extension in place of its own. -/
def withExtension (path : String) (extension_ : String) : String :=
  let cs := path.toList
  String.ofList (cs.take (cs.length - (extension path).length)) ++ extension_

end LittleLisp.Path
