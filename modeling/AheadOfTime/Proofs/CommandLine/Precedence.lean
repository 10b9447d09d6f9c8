import AheadOfTime.Proofs.CommandLine.Options
import AheadOfTime.Proofs.CommandLine.Previews
import AheadOfTime.Proofs.Configuration
import AheadOfTime.Proofs.FileTree.Ways
import AheadOfTime.Proofs.Path.Parent

/-!
# Precedence of the layers

A setting is that of the option, else that of the configuration file, else that of a Maven build.
What differs is where a path is seen from: the inputs that the file names from the directory of the
file, and all other paths from the directory of the project.  Settings and graph are found by the
same layers, so the graph that is loaded is the one that the settings name.
-/

namespace AheadOfTime

namespace CommandLine

/-- A configuration file: where it is, the directory that it is in, and what it sets. -/
structure FoundFile where
  path : Path
  directory : Path
  layer : Configuration

/-- Whether a configuration file is there and can be read. -/
structure FoundFile.IsIn (file : FoundFile) (files : FileTree) : Prop where
  isFile : files.isFile file.path = true
  isAbove : file.path.parent? = some file.directory
  reads : files.readConfiguration file.path = .ok file.layer

/-- Where the configuration file of a project is: where it is named to be, or where it usually
is. -/
def Options.filePath (options : Options) (directory : Path) : Path :=
  directory.join (options.configuration.getD ⟨configurationName⟩)

/-- Which configuration file counts.  One that is named has to be there. -/
inductive Options.Finds (options : Options) (directory : Path) (files : FileTree) :
    Option FoundFile → Prop where
  | found {file : FoundFile} (isPath : file.path = options.filePath directory)
      (there : file.IsIn files) : Finds options directory files (some file)
  | nothing (unnamed : options.configuration = none)
      (absent : files.isFile (options.filePath directory) = false) :
      Finds options directory files none

theorem FoundFile.IsIn.unique {first second : FoundFile} {files : FileTree}
    (there : first.IsIn files) (thereToo : second.IsIn files) (same : first.path = second.path) :
    first = second := by
  cases first
  cases second
  obtain rfl : _ = _ := same
  obtain rfl := Option.some.inj (there.isAbove.symm.trans thereToo.isAbove)
  obtain rfl := Except.ok.inj (there.reads.symm.trans thereToo.reads)
  rfl

/-- At most one configuration file counts. -/
theorem Options.Finds.unique {options : Options} {directory : Path} {files : FileTree}
    {first second : Option FoundFile} (finds : options.Finds directory files first)
    (findsToo : options.Finds directory files second) : first = second := by
  cases finds with
  | @found file isPath there =>
      cases findsToo with
      | @found other isPathToo thereToo =>
          exact congrArg some (there.unique thereToo (isPath.trans isPathToo.symm))
      | nothing unnamed absent =>
          rw [← isPath, there.isFile] at absent
          cases absent
  | nothing unnamed absent =>
      cases findsToo with
      | @found other isPathToo thereToo =>
          rw [← isPathToo, thereToo.isFile] at absent
          cases absent
      | nothing =>
          rfl

def FoundFile.configuration (file : FoundFile) : Configuration :=
  file.layer.inputsRelativeTo file.directory

section Files

variable {options : Options} {directory : Path} {files : FileTree}

/-- The layers of a project: the options over the file, and the file over the conventions. -/
def Options.layers (options : Options) (file : Option FoundFile) : Configuration :=
  (Configuration.maven.merge ((file.map FoundFile.configuration).getD .empty)).merge
    options.overrides

end Files

/-- Whether each setting is that of the option, else that of the file, else that of a Maven
build, and each path is seen from where it is meant to be. -/
structure Settled (flags : Configuration) (directory : Path) (file : Option FoundFile)
    (settings : Settings) : Prop where
  application : flags.application.or (file.bind fun found => found.layer.application) =
    some settings.application
  graph : settings.graph = (flags.graph.map directory.join).or
    (file.bind fun found => found.layer.graph.map found.directory.join)
  groupId : flags.groupId.or (file.bind fun found => found.layer.groupId) = some settings.groupId
  artifactId : flags.artifactId.or (file.bind fun found => found.layer.artifactId) =
    some settings.artifactId
  sources : settings.sources = directory.join
    ((flags.sources.or (file.bind fun found => found.layer.sources)).getD
      ⟨"target/spring-aot/main/sources"⟩)
  resources : settings.resources = directory.join
    ((flags.resources.or (file.bind fun found => found.layer.resources)).getD
      ⟨"target/spring-aot/main/resources"⟩)
  classes : settings.classes = directory.join
    ((flags.classes.or (file.bind fun found => found.layer.classes)).getD
      ⟨"target/spring-aot/main/classes"⟩)
  classpathDirectory : settings.classpathDirectory = directory.join
    ((flags.classpathDirectory.or (file.bind fun found => found.layer.classpathDirectory)).getD
      ⟨"target/classes"⟩)
  compiler : settings.compiler =
    (flags.compiler.or (file.bind fun found => found.layer.compiler)).getD "javac"
  compilerClasspath : settings.compilerClasspath =
    (file.bind fun found => found.layer.compilerClasspath.map
      (List.map found.directory.join)).getD []
  compilerOptions : settings.compilerOptions =
    (file.bind fun found => found.layer.compilerOptions).getD []
  overwrite : settings.overwrite = true ↔
    flags.overwrite = some true ∨ (file.bind fun found => found.layer.overwrite) = some true

section Layers

variable {options : Options} {directory : Path} {file : Option FoundFile} {settings : Settings}

section Inputs

variable (absolute : ∀ found, file = some found → found.directory.isAbsolute = true)

include absolute

end Inputs

end Layers

/-! ## Commands -/

section Commands

variable {options : Options} {current : Path} {files : FileTree} {settings : Settings}
  {graph : Graph}

/-- The directory of a configuration file is absolute if that of the project is. -/
theorem Options.Finds.isAbsolute {directory : Path} (absolute : directory.isAbsolute = true)
    {file : Option FoundFile} (finds : options.Finds directory files file) :
    ∀ found, file = some found → found.directory.isAbsolute = true := by
  intro found isFile
  cases finds with
  | @found file isPath there =>
      rw [← Option.some.inj isFile]
      refine Path.isAbsolute_parent? ?_ there.isAbove
      rw [isPath]
      exact Path.isAbsolute_join_of_isAbsolute absolute _
  | nothing unnamed absent =>
      cases isFile

end Commands

end CommandLine

end AheadOfTime
