import AheadOfTime.FileTree.Change
import AheadOfTime.FileTree.Listing

/-!
# Collecting files

The trees of several directories are laid over one another in a destination: a file
of a later tree takes the place of one of an earlier tree.
-/

namespace AheadOfTime

/-- A file that could not be copied. -/
structure CopyError where
  source : Path
  target : Path
  deriving DecidableEq

namespace Path

/-- Where a file goes that was found below a directory: to the same place below the
destination. -/
def rebase? (file directory destination : Path) : Option Path :=
  (stripComponents? file.components directory.components).map fun rest =>
    destination.join (.ofComponents rest)

end Path

namespace FileTree

def copyFile (tree : FileTree) (source target : Path) : Except CopyError Unit × FileTree :=
  match tree.makeParent target with
  | (.error _, changed) => (.error ⟨source, target⟩, changed)
  | (.ok (), changed) =>
      match changed.copy? source target with
      | none => (.error ⟨source, target⟩, changed)
      | some copied => (.ok (), copied)

/-- Copy files, one after the other. The targets are given back. -/
def copyFiles (tree : FileTree) :
    List (Path × Path) → Except CopyError (List Path) × FileTree
  | [] => (.ok [], tree)
  | (source, target) :: rest =>
      match tree.copyFile source target with
      | (.error error, changed) => (.error error, changed)
      | (.ok (), changed) =>
          match copyFiles changed rest with
          | (.error error, changed) => (.error error, changed)
          | (.ok targets, changed) => (.ok (target :: targets), changed)

/-- The files below a directory with the places they are collected to. -/
def collectionPlan (tree : FileTree) (directory destination : Path) : List (Path × Path) :=
  (tree.filesUnder directory).filterMap fun file =>
    (file.rebase? directory destination).map fun target => (file, target)

/-- Collect the trees of directories, one after the other. A directory that is not
there has no files. -/
def collect (tree : FileTree) (destination : Path) :
    List Path → Except CopyError (List Path) × FileTree
  | [] => (.ok [], tree)
  | directory :: rest =>
      match tree.copyFiles (tree.collectionPlan directory destination) with
      | (.error error, changed) => (.error error, changed)
      | (.ok targets, changed) =>
          match collect changed destination rest with
          | (.error error, changed) => (.error error, changed)
          | (.ok others, changed) => (.ok (targets ++ others), changed)

end FileTree

end AheadOfTime
