import AheadOfTime.Configuration

/-!
# Settings

The settings of a run: a configuration in which nothing is missing, with its paths
seen from the working directory.
-/

namespace AheadOfTime

/-- The settings that a configuration can lack or get wrong. -/
inductive Setting where
  | application
  | groupId
  | artifactId
  | sources
  | resources
  | classes
  | classpathDirectory
  | compiler
  deriving DecidableEq

namespace Setting

def key : Setting → String
  | application => "application"
  | groupId => "project.group-id"
  | artifactId => "project.artifact-id"
  | sources => "output.sources"
  | resources => "output.resources"
  | classes => "output.classes"
  | classpathDirectory => "output.classpath"
  | compiler => "compiler.program"

end Setting

inductive SettingFault where
  | blank
  | noSegment
  | blankProgram
  deriving DecidableEq

namespace SettingFault

def message : SettingFault → String
  | blank => "value cannot be empty"
  | noSegment => "value must be a single path segment"
  | blankProgram => "program cannot be empty"

end SettingFault

/-- Why a configuration is not enough for a run. -/
inductive SettingsError where
  | missing (setting : Setting)
  | invalid (setting : Setting) (value : String) (fault : SettingFault)
  deriving DecidableEq

namespace SettingsError

def message : SettingsError → String
  | missing setting => "missing required setting: " ++ setting.key
  | invalid setting value fault =>
      "invalid " ++ setting.key ++ " '" ++ value ++ "': " ++ fault.message

end SettingsError

/-- A graph for another application than the configured one. -/
structure ApplicationMismatch where
  configured : TypeName
  graph : TypeName
  deriving DecidableEq

namespace ApplicationMismatch

def message (mismatch : ApplicationMismatch) : String :=
  "graph application " ++ mismatch.graph.canonical ++
    " does not match configured application " ++ mismatch.configured.canonical

end ApplicationMismatch

/-- What a run needs to know. -/
structure Settings where
  application : TypeName
  graph : Option Path
  sources : Path
  resources : Path
  classes : Path
  classpathDirectory : Path
  groupId : String
  artifactId : String
  compiler : String
  compilerClasspath : List Path
  compilerOptions : List String
  overwrite : Bool
  deriving DecidableEq

/-- Whether a text is a single segment of a path, with slashes of either kind. -/
def Path.isSegment (text : String) : Bool :=
  text != "" && text != "." && text != ".." &&
    !text.toList.contains '/' && !text.toList.contains '\\'

namespace Configuration

def required (setting : Setting) (value : Option α) : Except SettingsError α :=
  match value with
  | some value => .ok value
  | none => .error (.missing setting)

/-- A coordinate of the project, which becomes the name of a directory. -/
def coordinate (setting : Setting) (value : Option String) :
    Except SettingsError String := do
  let value ← required setting value
  if Text.isBlank value.toList then
    .error (.invalid setting value .blank)
  else if !Path.isSegment value then
    .error (.invalid setting value .noSegment)
  else
    .ok value

def compilerProgram (value : Option String) : Except SettingsError String :=
  let program := value.getD defaultCompiler
  if Text.isBlank program.toList then
    .error (.invalid .compiler program .blankProgram)
  else
    .ok program

def resolve (configuration : Configuration) (workingDirectory : Path) :
    Except SettingsError Settings := do
  let application ← required .application configuration.application
  let groupId ← coordinate .groupId configuration.groupId
  let artifactId ← coordinate .artifactId configuration.artifactId
  let sources ← required .sources configuration.sources
  let resources ← required .resources configuration.resources
  let classes ← required .classes configuration.classes
  let classpathDirectory ← required .classpathDirectory configuration.classpathDirectory
  let compiler ← compilerProgram configuration.compiler
  return {
    application
    graph := configuration.graph.map workingDirectory.join
    sources := workingDirectory.join sources
    resources := workingDirectory.join resources
    classes := workingDirectory.join classes
    classpathDirectory := workingDirectory.join classpathDirectory
    groupId
    artifactId
    compiler
    compilerClasspath := (configuration.compilerClasspath.getD []).map workingDirectory.join
    compilerOptions := configuration.compilerOptions.getD []
    overwrite := configuration.overwrite.getD false }

end Configuration

namespace Settings

def maven (application : TypeName) (groupId artifactId : String)
    (workingDirectory : Path) : Except SettingsError Settings :=
  { Configuration.maven with
    application := some application
    groupId := some groupId
    artifactId := some artifactId }.resolve workingDirectory

/-- The directory for hints and startup arguments below a resource directory. -/
def nativeImageDirectoryOf (resources : Path) (groupId artifactId : String) : Path :=
  (((resources.join ⟨"META-INF"⟩).join ⟨"native-image"⟩).join ⟨groupId⟩).join ⟨artifactId⟩

def checkApplication (settings : Settings) (graph : TypeName) :
    Except ApplicationMismatch Unit :=
  if settings.application = graph then .ok () else .error ⟨settings.application, graph⟩

/-- The directory for hints and startup arguments of a run. -/
def nativeImageDirectory (settings : Settings) : Path :=
  nativeImageDirectoryOf settings.resources settings.groupId settings.artifactId

end Settings

end AheadOfTime
