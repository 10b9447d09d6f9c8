import AheadOfTime.Artifacts
import AheadOfTime.Collection
import AheadOfTime.Compilation

/-!
# The pipeline

One run of the pipeline generates the classes of a graph, compiles them, writes hints
and startup arguments, and collects what the application has to carry.  The first
stage that fails ends the run.  Nothing is written before generation has succeeded,
and nothing is collected before compilation has.
-/

namespace AheadOfTime

/-- A stage of a run. -/
inductive Stage where
  | configuration
  | generation
  | sourceWriting
  | compilation
  | hintWriting
  | startupArguments
  | collection
  deriving DecidableEq

namespace Stage

def display : Stage → String
  | configuration => "configuration"
  | generation => "code generation"
  | sourceWriting => "source writing"
  | compilation => "compilation"
  | hintWriting => "hint writing"
  | startupArguments => "startup arguments"
  | collection => "artifact collection"

end Stage

/-- How a run stands: it has not begun, it went through, or a stage of it failed. -/
inductive RunState where
  | idle
  | done
  | failed (stage : Stage)
  deriving DecidableEq

namespace RunState

def isTerminal : RunState → Bool
  | idle => false
  | done => true
  | failed _ => true

end RunState

/-- Why a stage failed. -/
inductive RunFault where
  | used
  | mismatch (mismatch : ApplicationMismatch)
  | generation (error : GenerationError)
  | notWritten (path : Path)
  | compilation (error : CompilationError)
  | notCopied (error : CopyError)
  deriving DecidableEq

namespace RunFault

/-- The wording of the refusal to run twice. -/
def usedMessage : String :=
  "an AOT process can only run once; create a new one for each run"

end RunFault

structure RunError where
  stage : Stage
  fault : RunFault
  deriving DecidableEq

/-- What a run has produced. -/
structure RunOutcome where
  generated : Generated
  hints : HintRegistry
  sources : List Path
  diagnostics : List Diagnostic
  hintFiles : List Path
  startupArguments : StartupArguments.Outcome
  collected : List Path

/-- A run, before or after it. -/
structure Pipeline where
  settings : Settings
  host : Host
  state : RunState

namespace Pipeline

def start (settings : Settings) (host : Host) : Pipeline :=
  ⟨settings, host, .idle⟩

abbrev Result := Except RunError RunOutcome × Workspace

def fail (stage : Stage) (fault : RunFault) (workspace : Workspace) : Result :=
  (.error ⟨stage, fault⟩, workspace)

/-- Collect resources and classes; classes win. -/
def collectStage (settings : Settings) (outcome : List Path → RunOutcome)
    (workspace : Workspace) : Result :=
  match workspace.files.collect settings.classpathDirectory
      [settings.resources, settings.classes] with
  | (.error error, files) => fail .collection (.notCopied error) { workspace with files }
  | (.ok collected, files) => (.ok (outcome collected), { workspace with files })

def argumentsStage (settings : Settings)
    (outcome : StartupArguments.Outcome → List Path → RunOutcome) (workspace : Workspace) :
    Result :=
  match StartupArguments.write settings workspace.files with
  | (.error path, files) => fail .startupArguments (.notWritten path) { workspace with files }
  | (.ok arguments, files) =>
      collectStage settings (outcome arguments) { workspace with files }

def hintStage (settings : Settings) (hints : HintRegistry)
    (outcome : List Path → StartupArguments.Outcome → List Path → RunOutcome)
    (workspace : Workspace) : Result :=
  match workspace.files.writeHints hints settings.nativeImageDirectory with
  | (.error path, files) => fail .hintWriting (.notWritten path) { workspace with files }
  | (.ok hintFiles, files) =>
      argumentsStage settings (outcome hintFiles) { workspace with files }

def compileStage (settings : Settings) (host : Host) (generated : Generated)
    (hints : HintRegistry) (workspace : Workspace) : Result :=
  let sources := workspace.files.sourcesUnder settings.sources
  match host.compile sources settings.classes workspace with
  | (.error error, workspace) => fail .compilation (.compilation error) workspace
  | (.ok diagnostics, workspace) =>
      hintStage settings hints (RunOutcome.mk generated hints sources diagnostics) workspace

def sourceStage (settings : Settings) (host : Host) (generated : Generated)
    (hints : HintRegistry) (workspace : Workspace) : Result :=
  match workspace.files.writeSources generated.units settings.sources with
  | (.error path, files) => fail .sourceWriting (.notWritten path) { workspace with files }
  | (.ok _, files) => compileStage settings host generated hints { workspace with files }

def stages (settings : Settings) (host : Host) (graph : Graph) (workspace : Workspace) :
    Result :=
  match settings.checkApplication graph.application with
  | .error mismatch => fail .configuration (.mismatch mismatch) workspace
  | .ok () =>
      match graph.generate .empty with
      | (.error error, _) => fail .generation (.generation error) workspace
      | (.ok generated, context) =>
          sourceStage settings host generated context.hints workspace

def stateAfter (result : Except RunError RunOutcome) : RunState :=
  match result with
  | .ok _ => .done
  | .error error => .failed error.stage

/-- Run a pipeline for a graph. A pipeline runs only once. -/
def run (pipeline : Pipeline) (graph : Graph) (workspace : Workspace) :
    Except RunError RunOutcome × Pipeline × Workspace :=
  if pipeline.state = .idle then
    let (result, workspace) := stages pipeline.settings pipeline.host graph workspace
    (result, { pipeline with state := stateAfter result }, workspace)
  else
    (.error ⟨.configuration, .used⟩, pipeline, workspace)

end Pipeline

end AheadOfTime
