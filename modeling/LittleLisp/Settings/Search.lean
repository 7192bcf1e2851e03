import LittleLisp.FileTree
import LittleLisp.Settings.OfToml

/-!
# Finding the settings

The settings file that governs a directory is the nearest one, in the directory itself or in one
around it. The search does not go beyond the root of a repository.
-/

namespace LittleLisp

namespace Settings

/-- The name of a settings file. -/
def fileName : String := "lili.toml"

/-- The entry that marks the root of a repository. -/
def rootMark : String := ".git"

/-- Settings and the path of the file that they came from. -/
structure Found where
  path : String
  settings : Settings
deriving DecidableEq, Repr

/-- The settings file of one directory. -/
def loadIn (t : FileTree) (dir : List String) : Except LoadError Found :=
  let names := dir ++ [fileName]
  let path := Path.ofNames names
  let text := match t.kind? names with
    | some (.file text) => text.text?
    | _ => none
  match load path text with
  | .ok settings => .ok ⟨path, settings⟩
  | .error e => .error e

/-- Searches a directory, given by its names from the last to the first, and those around it. -/
def searchUp (t : FileTree) (reversed : List String) : Except LoadError (Option Found) :=
  let dir := reversed.reverse
  if t.exists? (dir ++ [fileName]) then
    match loadIn t dir with
    | .ok found => .ok (some found)
    | .error e => .error e
  else if t.exists? (dir ++ [rootMark]) then .ok none
  else
    match reversed with
    | [] => .ok none
    | _ :: around => searchUp t around

/-- The settings that govern a directory, if there are any. -/
def find (t : FileTree) (dir : List String) : Except LoadError (Option Found) :=
  searchUp t dir.reverse

end Settings

end LittleLisp
