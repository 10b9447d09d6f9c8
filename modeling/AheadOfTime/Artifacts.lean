import AheadOfTime.FileTree.Change
import AheadOfTime.Generation
import AheadOfTime.Hint.Configuration
import AheadOfTime.Settings

/-!
# Writing artifacts

What a run writes: the sources, the hints, and the startup arguments of the native
compiler.  Writing stops at the first file that cannot be written; the path that is
in the way is the error.
-/

namespace AheadOfTime

namespace FileTree

def writeTexts (tree : FileTree) :
    List (Path × String) → Except Path (List Path) × FileTree
  | [] => (.ok [], tree)
  | (path, text) :: rest =>
      match tree.writeText path text with
      | (.error obstacle, changed) => (.error obstacle, changed)
      | (.ok (), changed) =>
          match writeTexts changed rest with
          | (.error obstacle, changed) => (.error obstacle, changed)
          | (.ok paths, changed) => (.ok (path :: paths), changed)

def writeSources (tree : FileTree) (units : List Java.SourceUnit) (directory : Path) :
    Except Path (List Path) × FileTree :=
  tree.writeTexts (units.map fun unit => (directory.join unit.name.sourcePath, unit.body))

def writeHints (tree : FileTree) (hints : HintRegistry) (directory : Path) :
    Except Path (List Path) × FileTree :=
  tree.writeTexts ((NativeConfiguration.ofRegistry hints).files.map fun file =>
    (directory.join ⟨file.name⟩, file.contents))

end FileTree

namespace StartupArguments

def fileName : String := "native-image.properties"

/-- The arguments after the one that names the application. -/
def fixed : List String :=
  ["--allow-incomplete-classpath", "--report-unsupported-elements-at-runtime",
    "--no-fallback", "--install-exit-handlers"]

/-- What is between two arguments: the line goes on after the backslash. -/
def lineContinuation : String := " \\\n"

def text (application : String) : String :=
  "Args = -H:Class=" ++ application ++
    String.join (fixed.map fun argument => lineContinuation ++ argument) ++ "\n"

def path (settings : Settings) : Path :=
  settings.nativeImageDirectory.join ⟨fileName⟩

/-- What happened to the file of startup arguments: it was missing and written, it
was as expected, it was different and stayed, or it was different and replaced. -/
inductive Outcome where
  | written
  | kept
  | stale
  | refreshed
  deriving DecidableEq

def writeAs (outcome : Outcome) (settings : Settings) (tree : FileTree) :
    Except Path Outcome × FileTree :=
  match tree.writeText (path settings) (text settings.application.canonical) with
  | (.error obstacle, changed) => (.error obstacle, changed)
  | (.ok (), changed) => (.ok outcome, changed)

/-- Write the file unless it is there. A file with other contents is replaced only if
the settings say so. -/
def write (settings : Settings) (tree : FileTree) : Except Path Outcome × FileTree :=
  if !tree.contains (path settings) then
    writeAs .written settings tree
  else
    match tree.readText? (path settings) with
    | none => (.error (path settings), tree)
    | some existing =>
        if existing = text settings.application.canonical then
          (.ok .kept, tree)
        else if !settings.overwrite then
          (.ok .stale, tree)
        else
          writeAs .refreshed settings tree

end StartupArguments

end AheadOfTime
