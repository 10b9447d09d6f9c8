import AheadOfTime.Compilation.Diagnostic
import AheadOfTime.FileTree.Change
import AheadOfTime.FileTree.Listing

/-!
# Compilation

All sources of a run are handed to a host compiler at once.  The compilation fails if
the host says so or if one of its messages is an error.
-/

namespace AheadOfTime

/-- The end of the names of source files. -/
def sourceSuffix : List Char := ['.', 'j', 'a', 'v', 'a']

def Path.isSource (path : Path) : Bool :=
  match path.fileName? with
  | some name => sourceSuffix.isSuffixOf name.toList
  | none => false

/-- The source files below a directory, ascending by components. -/
def FileTree.sourcesUnder (tree : FileTree) (directory : Path) : List Path :=
  (tree.filesUnder directory).filter Path.isSource

/-- What a host is asked for. -/
structure CompileRequest where
  sources : List Path
  classes : Path
  deriving DecidableEq

/-- What a host reports, with the lines of output that belong to no message. -/
structure HostReport where
  success : Bool
  diagnostics : List Diagnostic
  unparsed : List String
  deriving DecidableEq

inductive CompilationError where
  | notLaunched (program : String)
  | noDirectory (classes : Path)
  | failed (report : String) (diagnostics : List Diagnostic)
  deriving DecidableEq

namespace CompilationError

def failureMessage (report : String) : String :=
  "compilation failed:" ++ report

end CompilationError

/-- A compiler: its name, and what it reports and does to the files when it is
asked. -/
structure Host where
  program : String
  invoke : CompileRequest → FileTree → Except CompilationError HostReport × FileTree

/-- The files, and what the host has been asked for, the last request last. -/
structure Workspace where
  files : FileTree
  requests : List CompileRequest

namespace HostReport

def isClean (report : HostReport) : Bool :=
  report.success && (Diagnostic.errors report.diagnostics).isEmpty

/-- What is told about a failure: the errors, or if there are none that the program
failed and what it said. -/
def failureText (report : HostReport) (program : String) : String :=
  if (Diagnostic.errors report.diagnostics).isEmpty then
    "\n" ++ program ++ " exited with a failure status" ++
      String.join (report.unparsed.map fun line => "\n" ++ line)
  else
    Diagnostic.errorReport report.diagnostics

/-- The messages of a report that lets a run go on, or the failure. -/
def verdict (report : HostReport) (program : String) :
    Except CompilationError (List Diagnostic) :=
  if report.isClean then
    .ok report.diagnostics
  else
    .error (.failed (report.failureText program) report.diagnostics)

end HostReport

namespace Host

def ask (host : Host) (request : CompileRequest) (workspace : Workspace) :
    Except CompilationError (List Diagnostic) × Workspace :=
  let requests := workspace.requests ++ [request]
  match host.invoke request workspace.files with
  | (.error error, files) => (.error error, ⟨files, requests⟩)
  | (.ok report, files) => (report.verdict host.program, ⟨files, requests⟩)

/-- Compile sources into a directory, which is made if it is missing. Without sources
there is nothing to do, and the host is not asked. -/
def compile (host : Host) (sources : List Path) (classes : Path) (workspace : Workspace) :
    Except CompilationError (List Diagnostic) × Workspace :=
  if sources.isEmpty then
    (.ok [], workspace)
  else
    match workspace.files.makeDirectories classes with
    | (files, false) => (.error (.noDirectory classes), { workspace with files })
    | (files, true) => host.ask ⟨sources, classes⟩ { workspace with files }

end Host

end AheadOfTime
