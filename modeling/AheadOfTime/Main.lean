import AheadOfTime.CommandLine

/-!
# The program

Reads the files that a command needs, does what the command asks for, and writes the
files that it has changed.  No compiler is launched from here, so a run that comes to
the compilation ends with the failure to launch one.
-/

namespace AheadOfTime

def noLauncher : Launcher :=
  fun _ _ files => (none, files)

def Place.path (place : Place) : Path :=
  ⟨"/" ++ "/".intercalate place⟩

/-- A tree with what the disk has at a path, and below it. -/
partial def loadBelow (tree : FileTree) (path : Path) : IO FileTree := do
  let entry : IO.FS.DirEntry := { root := path.text, fileName := "" }
  if !(← entry.root.pathExists) then
    return tree
  else if ← entry.root.isDir then
    let children ← entry.root.readDir
    children.foldlM (fun tree child => loadBelow tree (path.join ⟨child.fileName⟩))
      (tree.put path.place .directory)
  else
    return tree.put path.place (.file (← IO.FS.readBinFile path.text))

/-- A tree with what the disk has at a path, below it, and on the way to it. -/
def load (tree : FileTree) (path : Path) : IO FileTree := do
  let place := path.place
  let tree ← (List.range place.length).foldlM
    (fun tree count => do
      let above := Place.path (place.take count)
      let entry : IO.FS.DirEntry := { root := above.text, fileName := "" }
      if !(← entry.root.pathExists) then
        return tree
      else if ← entry.root.isDir then
        return tree.put above.place .directory
      else
        return tree.put above.place (.file (← IO.FS.readBinFile above.text)))
    tree
  loadBelow tree (Place.path place)

/-- The files that a command line needs. -/
def filesFor (arguments : List String) (current : Path) : IO FileTree := do
  match CommandLine.read arguments with
  | .ok (.command command options) =>
      let directory := options.projectDirectory current
      let name := options.configuration.getD ⟨CommandLine.configurationName⟩
      let tree ← load .empty (directory.join name)
      let graph := (options.load directory tree).toOption.bind Configuration.graph
      let tree ← (graph.toList.map directory.join).foldlM load tree
      match command, options.settings current tree with
      | .run, .ok settings =>
          [settings.sources, settings.resources, settings.classes,
            settings.classpathDirectory].foldlM load tree
      | _, _ => return tree
  | _ => return .empty

/-- Bring the disk from one tree to another one in which nothing is missing. -/
def save (before after : FileTree) : IO Unit := do
  for (place, node) in after.entries do
    if before.node? place != some node then
      match node with
      | .directory => IO.FS.createDirAll (Place.path place).text
      | .file contents => do
          IO.FS.createDirAll (Place.path place.dropLast).text
          IO.FS.writeBinFile (Place.path place).text contents

/-- Do what the arguments ask for, and tell the exit code. -/
def runProgram (arguments : List String) : IO UInt32 := do
  let current : Path := ⟨(← IO.currentDir).toString⟩
  let before ← filesFor arguments current
  let (ending, after) := CommandLine.perform noLauncher arguments current ⟨before, []⟩
  save before after.files
  IO.print ending.output
  match ending.failure with
  | some message => IO.eprintln ("Error: " ++ message)
  | none => pure ()
  return ending.exitCode.toUInt32

end AheadOfTime

def main (arguments : List String) : IO UInt32 :=
  AheadOfTime.runProgram arguments
