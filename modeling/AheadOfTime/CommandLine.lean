import AheadOfTime.CommandLine.Arguments
import AheadOfTime.Compilation.Javac
import AheadOfTime.Configuration.Reader
import AheadOfTime.Graph.Decoding
import AheadOfTime.Pipeline

/-!
# The command line

What the commands do.  The settings of a project come from three layers, each over
the one before: the directories of a Maven build, the configuration file of the
project, and the options of the command line.
-/

namespace AheadOfTime

inductive ConfigurationFileError where
  | unreadable (path : Path)
  | text (error : ConfigurationTextError)
  deriving DecidableEq

namespace FileTree

def readConfiguration (tree : FileTree) (path : Path) :
    Except ConfigurationFileError Configuration :=
  match tree.readText? path with
  | none => .error (.unreadable path)
  | some text => (Configuration.read text).mapError .text

def readGraph (tree : FileTree) (path : Path) : Except GraphError Graph :=
  match tree.readText? path with
  | none => .error .unreadable
  | some text => Graph.read (Graph.formatOf path) text

end FileTree

namespace CommandLine

inductive Failure where
  | noConfiguration (path : Path)
  | badConfiguration (path : Path) (error : ConfigurationFileError)
  | badSettings (error : SettingsError)
  | noGraph
  | badGraph (path : Path) (error : GraphError)
  | otherApplication (path : Path) (graph configured : TypeName)
  | notGenerated (application : TypeName) (error : GenerationError)
  | notRun (application : TypeName) (error : RunError)
  deriving DecidableEq

def configurationName : String := "nativex.toml"

namespace Failure

def quoted (path : Path) : String :=
  "`" ++ path.text ++ "`"

def message : Failure → String
  | noConfiguration path => "Configuration file " ++ quoted path ++ " not found"
  | badConfiguration path _ => "Failed to load " ++ quoted path
  | badSettings _ => "Invalid configuration"
  | noGraph => "No graph given; pass --graph or set `graph` in " ++ configurationName
  | badGraph path _ => "Failed to load graph " ++ quoted path
  | otherApplication path graph configured =>
      "Graph " ++ quoted path ++ " is for " ++ graph.canonical ++
        ", but the configured application is " ++ configured.canonical
  | notGenerated application _ => "Failed to generate code for " ++ application.canonical
  | notRun application _ => "AOT processing of " ++ application.canonical ++ " failed"

end Failure

namespace Options

def projectDirectory (options : Options) (current : Path) : Path :=
  match options.directory with
  | some directory => current.join directory
  | none => current

/-- The configuration file: the one that is named, which has to be there, or the one in
the directory of the project, if it is there. -/
def configurationFile (options : Options) (directory : Path) (files : FileTree) :
    Except Failure (Option Path) :=
  match options.configuration with
  | some path =>
      let path := directory.join path
      if files.isFile path then .ok (some path) else .error (.noConfiguration path)
  | none =>
      let path := directory.join ⟨configurationName⟩
      .ok (if files.isFile path then some path else none)

/-- The layer of a configuration file. Its inputs are seen from the directory that it
is in. -/
def fileLayer (directory : Path) (files : FileTree) :
    Option Path → Except Failure Configuration
  | none => .ok .empty
  | some path =>
      match files.readConfiguration path with
      | .error error => .error (.badConfiguration path error)
      | .ok layer => .ok (layer.inputsRelativeTo (path.parent?.getD directory))

def load (options : Options) (directory : Path) (files : FileTree) :
    Except Failure Configuration := do
  let file ← options.configurationFile directory files
  let layer ← fileLayer directory files file
  return (Configuration.maven.merge layer).merge options.overrides

def settings (options : Options) (current : Path) (files : FileTree) :
    Except Failure Settings := do
  let directory := options.projectDirectory current
  let configuration ← options.load directory files
  (configuration.resolve directory).mapError .badSettings

/-- The graph in a file, which has to be one for the application, if that is
known. -/
def graphFor (application : Option TypeName) (path : Path) (files : FileTree) :
    Except Failure Graph := do
  let graph ← (files.readGraph path).mapError (.badGraph path)
  match application with
  | none => return graph
  | some configured =>
      if configured = graph.application then
        return graph
      else
        .error (.otherApplication path graph.application configured)

def graph (options : Options) (current : Path) (files : FileTree) :
    Except Failure Graph := do
  let directory := options.projectDirectory current
  let configuration ← options.load directory files
  match configuration.graph with
  | none => .error .noGraph
  | some path => graphFor configuration.application (directory.join path) files

end Options

/-- A file as the commands print it: its name in a comment, then its contents. -/
def listing (name contents : String) : String :=
  "// " ++ name ++ "\n" ++ contents

def generated (graph : Graph) : Except Failure (Generated × HintRegistry) :=
  match graph.generate .empty with
  | (.error error, _) => .error (.notGenerated graph.application error)
  | (.ok generated, context) => .ok (generated, context.hints)

def sourcesText (graph : Graph) : Except Failure String := do
  let (generated, _) ← generated graph
  return String.join (generated.units.map fun unit =>
    listing unit.name.sourcePath.text unit.body ++ "\n")

def hintsText (graph : Graph) : Except Failure String := do
  let (_, hints) ← generated graph
  return String.join ((NativeConfiguration.ofRegistry hints).files.map fun file =>
    listing file.name file.contents)

def summary (settings : Settings) (outcome : RunOutcome) : String :=
  toString outcome.sources.length ++ " source(s) compiled, " ++
    toString outcome.hintFiles.length ++ " hint file(s) written, " ++
    toString outcome.collected.length ++ " file(s) collected into " ++
    settings.classpathDirectory.text ++ "\n"

def runPipeline (launcher : Launcher) (options : Options) (current : Path)
    (workspace : Workspace) : Except Failure String × Workspace :=
  match options.settings current workspace.files, options.graph current workspace.files with
  | .error failure, _ => (.error failure, workspace)
  | .ok _, .error failure => (.error failure, workspace)
  | .ok settings, .ok graph =>
      let pipeline := Pipeline.start settings ((Javac.ofSettings settings).host launcher)
      match pipeline.run graph workspace with
      | (.error error, _, workspace) => (.error (.notRun graph.application error), workspace)
      | (.ok outcome, _, workspace) => (.ok (summary settings outcome), workspace)

def execute (launcher : Launcher) (command : Command) (options : Options) (current : Path)
    (workspace : Workspace) : Except Failure String × Workspace :=
  match command with
  | .run => runPipeline launcher options current workspace
  | .showSources => ((options.graph current workspace.files).bind sourcesText, workspace)
  | .showHints => ((options.graph current workspace.files).bind hintsText, workspace)

def versionText : String := "nativex 0.1.0\n"

/-- What the program tells about its use. -/
def usageText : String :=
  "Usage: nativex <process|generate|hints> [OPTIONS]\n"

/-- How the program ends: its exit code, what it prints, and what went wrong. -/
structure Ending where
  exitCode : Nat
  output : String
  failure : Option String
  deriving DecidableEq

namespace Ending

def ofResult : Except Failure String → Ending
  | .ok output => ⟨0, output, none⟩
  | .error failure => ⟨1, "", some failure.message⟩

end Ending

/-- The program: what it does for arguments in a current directory. -/
def perform (launcher : Launcher) (arguments : List String) (current : Path)
    (workspace : Workspace) : Ending × Workspace :=
  match read arguments with
  | .error _ => (⟨2, "", none⟩, workspace)
  | .ok .version => (⟨0, versionText, none⟩, workspace)
  | .ok .help => (⟨0, usageText, none⟩, workspace)
  | .ok (.command command options) =>
      let (result, workspace) := execute launcher command options current workspace
      (.ofResult result, workspace)

end CommandLine

end AheadOfTime
