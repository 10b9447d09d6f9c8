import AheadOfTime.FileTree

/-!
# Changing file trees

Making directories, writing files and copying them.  A change that fails may have
made directories on its way, so the tree after it is given in either case.
-/

namespace AheadOfTime.FileTree

/-- Parts of a path without the empty ones at its end. -/
def dropEmptyEnd (parts : List String) : List String :=
  (parts.reverse.dropWhile (· == "")).reverse

def isNewName (part : String) : Bool :=
  part != "" && part != "." && part != ".." && isUsableName part

def freePlace (tree : FileTree) (directory : Place) (name : String) :
    Except WalkFault Place :=
  if tree.hasDirectory directory && isNewName name &&
      (tree.node? (directory ++ [name])).isNone then
    .ok (directory ++ [name])
  else
    .error .blocked

/-- Make one directory. The directory that it is in has to be there. -/
def makeDirectory (tree : FileTree) (path : Path) : Except WalkFault FileTree :=
  if !isUsablePath path then
    .error .blocked
  else
    let parts := dropEmptyEnd path.parts
    match parts.getLast? with
    | none => .error .blocked
    | some name => do
        let directory ← tree.walk [] parts.dropLast
        let place ← tree.freePlace directory name
        return tree.put place .directory

/-- Make the first of several directories, each of which is in the one after it. Those
that are missing are made before it. The second result tells whether the directory is
there in the end. -/
def makeChain (tree : FileTree) : List Path → FileTree × Bool
  | [] => (tree, false)
  | path :: above =>
      if path.text = "" then
        (tree, true)
      else
        match tree.makeDirectory path with
        | .ok changed => (changed, true)
        | .error .blocked => (tree, tree.isDirectory path)
        | .error .missing =>
            match makeChain tree above with
            | (changed, false) => (changed, false)
            | (changed, true) =>
                match changed.makeDirectory path with
                | .ok made => (made, true)
                | .error _ => (changed, changed.isDirectory path)

/-- A path and the first `count` paths above it. -/
def ancestors : (count : Nat) → Path → List Path
  | 0, path => [path]
  | count + 1, path =>
      match path.parent? with
      | none => [path]
      | some parent => path :: ancestors count parent

def makeDirectories (tree : FileTree) (path : Path) : FileTree × Bool :=
  tree.makeChain (ancestors path.components.length path)

/-- Make the directory that a path is in. The path of that directory is given if it
cannot be made. -/
def makeParent (tree : FileTree) (path : Path) : Except Path Unit × FileTree :=
  match path.parent? with
  | none => (.ok (), tree)
  | some parent =>
      match tree.makeDirectories parent with
      | (changed, true) => (.ok (), changed)
      | (changed, false) => (.error parent, changed)

/-- The place where a path allows a file to be written: in a directory, where no
directory is. -/
def writable? (tree : FileTree) (path : Path) : Option Place :=
  if !isUsablePath path then
    none
  else
    match path.parts.getLast? with
    | none => none
    | some name =>
        match tree.walk [] path.parts.dropLast with
        | .error _ => none
        | .ok directory =>
            if tree.hasDirectory directory && isNewName name &&
                !tree.hasDirectory (directory ++ [name]) then
              some (directory ++ [name])
            else
              none

def write? (tree : FileTree) (path : Path) (contents : ByteArray) : Option FileTree :=
  (tree.writable? path).map fun place => tree.put place (.file contents)

/-- Write a file, making its directory if it is missing. The path that is in the way
is given if that fails. -/
def writeFile (tree : FileTree) (path : Path) (contents : ByteArray) :
    Except Path Unit × FileTree :=
  match tree.makeParent path with
  | (.error parent, changed) => (.error parent, changed)
  | (.ok (), changed) =>
      match changed.write? path contents with
      | none => (.error path, changed)
      | some written => (.ok (), written)

def writeText (tree : FileTree) (path : Path) (text : String) :
    Except Path Unit × FileTree :=
  tree.writeFile path text.toUTF8

/-- Copy a file to a path whose directory is there. The target is emptied before the
file is read, so that copying a file to itself empties it. -/
def copy? (tree : FileTree) (source target : Path) : Option FileTree :=
  if !tree.isFile source then
    none
  else
    match tree.write? target .empty with
    | none => none
    | some emptied =>
        match emptied.read? source with
        | none => none
        | some contents => emptied.write? target contents

end AheadOfTime.FileTree
