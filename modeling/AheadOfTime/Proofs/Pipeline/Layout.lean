import AheadOfTime.Proofs.FileTree.Overlays
import AheadOfTime.Proofs.Pipeline.Sources

/-!
# The layout of Maven

All directories of a run in the layout of Maven are below one directory, at different places
there.  What is written in one of them leaves the others alone.
-/

namespace AheadOfTime

namespace Settings

/-- A directory that a run writes into. -/
inductive Output where
  | sources
  | resources
  | classes
  | classpath
  deriving DecidableEq

/-- The names that lead to a directory in the layout of Maven, from the directory for what a
build makes. -/
def Output.mavenNames : Output → List String
  | sources => ["spring-aot", "main", "sources"]
  | resources => ["spring-aot", "main", "resources"]
  | classes => ["spring-aot", "main", "classes"]
  | classpath => ["classes"]

def output (settings : Settings) : Output → Path
  | .sources => settings.sources
  | .resources => settings.resources
  | .classes => settings.classes
  | .classpath => settings.classpathDirectory

theorem Output.isFileName_mavenNames (output : Output) :
    ∀ name ∈ output.mavenNames, Path.IsFileName name := by
  cases output with
  | sources =>
      decide
  | resources =>
      decide
  | classes =>
      decide
  | classpath =>
      decide

theorem Output.mavenNames_ne_nil (output : Output) : output.mavenNames ≠ [] := by
  cases output
  all_goals exact List.cons_ne_nil _ _

theorem Output.not_prefix_mavenNames (first second : Output) (different : first ≠ second) :
    ¬ first.mavenNames <+: second.mavenNames := by
  cases first
  all_goals
    cases second
    all_goals
      first
      | exact absurd rfl different
      | decide

/-- Whether the directories of a run are those of a Maven build, below the directory for what
the build makes. -/
structure IsMaven (settings : Settings) (target : Path) : Prop where
  isBase : target.IsBase
  output : ∀ output : Output, settings.output output = target.below output.mavenNames
  coordinates : settings.HasCoordinates

/-- Settings for the directories of a Maven build have its layout. -/
theorem isMaven_of_maven {application : TypeName} {groupId artifactId : String}
    {workingDirectory : Path} {settings : Settings}
    (resolved : maven application groupId artifactId workingDirectory = .ok settings)
    (absolute : workingDirectory.isAbsolute = true) (overwrite : Bool) :
    IsMaven { settings with overwrite } (workingDirectory.join ⟨"target"⟩) := by
  have isFileName : Path.IsFileName "target" := by decide
  have relative := Path.isAbsolute_of_isFileName isFileName
  have coordinates := hasCoordinates_of_resolve resolved
  have isBase : (workingDirectory.join ⟨"target"⟩).IsBase := by
    refine ⟨Path.isListable_of_isAbsolute (Path.isAbsolute_join_of_isAbsolute absolute _), ?_⟩
    obtain ⟨front, -, joined⟩ := workingDirectory.parts_join relative
    exact ⟨front, "target", joined, isFileName.1⟩
  have directory : ∀ (path : Path) (names : List String), (⟨"target"⟩ : Path).below names = path →
      workingDirectory.join path = (workingDirectory.join ⟨"target"⟩).below names := by
    intro path names same
    rw [← same]
    exact (Path.below_join workingDirectory ⟨"target"⟩ names).symm
  have sources := directory ⟨"target/spring-aot/main/sources"⟩ ["spring-aot", "main", "sources"]
    (by decide)
  have resources := directory ⟨"target/spring-aot/main/resources"⟩
    ["spring-aot", "main", "resources"] (by decide)
  have classes := directory ⟨"target/spring-aot/main/classes"⟩ ["spring-aot", "main", "classes"]
    (by decide)
  have classpath := directory ⟨"target/classes"⟩ ["classes"] (by decide)
  have made := Configuration.resolvesTo_of_resolve resolved
  refine ⟨isBase, fun output => ?_, ⟨coordinates.group, coordinates.artifact⟩⟩
  cases output with
  | sources =>
      exact (Option.some.inj made.sources).symm.trans sources
  | resources =>
      exact (Option.some.inj made.resources).symm.trans resources
  | classes =>
      exact (Option.some.inj made.classes).symm.trans classes
  | classpath =>
      exact (Option.some.inj made.classpathDirectory).symm.trans classpath

namespace IsMaven

variable {settings : Settings} {target : Path} (layout : settings.IsMaven target)

include layout

theorem isBase_output (output : Output) : (settings.output output).IsBase := by
  rw [layout.output]
  exact layout.isBase.below output.isFileName_mavenNames

/-- Names can be added to the directories for artifacts too. -/
theorem isBase_artifacts (output : Output) :
    (nativeImageDirectoryOf (settings.output output) settings.groupId
      settings.artifactId).IsBase := by
  have metaInf : Path.IsFileName "META-INF" := by decide
  have nativeImage : Path.IsFileName "native-image" := by decide
  have shared := ((layout.isBase_output output).join metaInf).join nativeImage
  exact (shared.join layout.coordinates.group).join layout.coordinates.artifact

theorem isBelow_target (output : Output) {path : Path}
    (below : (settings.output output).IsBelow path) : target.IsBelow path := by
  rw [layout.output] at below
  exact below.of_below output.isFileName_mavenNames

theorem apart (first second : Output) (different : first ≠ second) :
    (settings.output first).Apart (settings.output second) := by
  rw [layout.output, layout.output]
  exact layout.isBase.apart_below first.isFileName_mavenNames second.isFileName_mavenNames
    (Output.not_prefix_mavenNames first second different)
    (Output.not_prefix_mavenNames second first different.symm)

/-- What is written in one directory leaves the others alone. -/
theorem agreesBelow_of_writes {before after : FileTree}
    (there : before.isDirectory target = true) {paths : List Path}
    (writes : FileTree.Writes paths before after) (written other : Output)
    (different : other ≠ written)
    (below : ∀ path ∈ paths, (settings.output written).IsBelow path) :
    FileTree.AgreesBelow (settings.output other).place before after :=
  FileTree.agreesBelow_of_writes there writes
    (fun path member => layout.isBelow_target written (below path member))
    fun path member => (layout.apart other written different).outside (below path member)

/-- Making one of the directories leaves what is in the others alone. -/
theorem agreesBelow_of_makeDirectories {before after : FileTree}
    (there : before.isDirectory target = true) (made other : Output) (different : other ≠ made)
    {isMade : Bool} (makes : before.makeDirectories (settings.output made) = (after, isMade)) :
    FileTree.AgreesBelow (settings.output other).place before after := by
  have writes := (FileTree.makes_makeDirectories before (settings.output made)).writes
  rw [makes] at writes
  refine FileTree.agreesBelow_of_writes there writes (List.forall_mem_singleton.2 ?_)
    (List.forall_mem_singleton.2 (layout.apart other made different).notAbove)
  exact ⟨_, made.mavenNames_ne_nil, made.isFileName_mavenNames, layout.output made⟩

theorem isDirectory_output_of_makeDirectories {before after : FileTree}
    (there : before.isDirectory target = true) (made : Output)
    (makes : before.makeDirectories (settings.output made) = (after, true)) :
    after.isDirectory (settings.output made) = true := by
  rw [layout.output] at makes ⊢
  exact FileTree.isDirectory_below_of_makeDirectories layout.isBase there
    made.isFileName_mavenNames makes

theorem isBelow_artifact {name : String} (isArtifact : name ∈ artifactNames) :
    settings.resources.IsBelow (settings.nativeImageDirectory.join ⟨name⟩) :=
  isBelow_artifactBelow layout.coordinates isArtifact settings.resources

end IsMaven

end Settings

theorem TypeName.isBelow_source (directory : Path) (type : TypeName) :
    directory.IsBelow (directory.join type.sourcePath) :=
  Path.isBelow_join_ofNames directory type.sourceNames_ne_nil fun _ member =>
    isFileName_of_mem_sourceNames member

end AheadOfTime
