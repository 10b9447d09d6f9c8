import AheadOfTime.FileTree

/-!
# Listing files

The files below a directory, at any depth, with the paths that lead to them from it.
-/

namespace AheadOfTime

namespace Path

/-- Paths ascending by components. -/
def sort (paths : List Path) : List Path :=
  paths.mergeSort fun left right => !right.precedes left

/-- How listings write a directory: with one slash between parts and none at the end.
At the start of a relative path dots are left out. -/
def listed (path : Path) : Path :=
  let parts := path.parts.filter (· ≠ "")
  if path.isAbsolute then
    ⟨"/" ++ "/".intercalate parts⟩
  else
    ⟨"/".intercalate (parts.dropWhile (· = "."))⟩

end Path

namespace FileTree

/-- The rest of a place's names after those of `base`, if it is below it. -/
def below? : (base place : Place) → Option Place
  | [], [] => none
  | [], name :: names => some (name :: names)
  | _ :: _, [] => none
  | expected :: base, name :: place =>
      if name = expected then below? base place else none

def filesBelow (tree : FileTree) (place : Place) : List Place :=
  tree.entries.filterMap fun (found, node) =>
    match node with
    | .directory => none
    | .file _ => below? place found

/-- The files below a directory, ascending by components. A path that leads to no
directory has none. -/
def filesUnder (tree : FileTree) (directory : Path) : List Path :=
  match tree.locate? directory with
  | none => []
  | some place =>
      if tree.hasDirectory place then
        Path.sort ((tree.filesBelow place).map fun names =>
          directory.listed.join (.ofNames names))
      else
        []

end FileTree

end AheadOfTime
