import AheadOfTime.Path
import AheadOfTime.TypeName

/-!
# Configurations

A configuration names the settings of a run that differ from what they would be
without it.  Configurations are laid over one another: a setting comes from the last
layer that has it.
-/

namespace AheadOfTime

structure Configuration where
  application : Option TypeName
  graph : Option Path
  groupId : Option String
  artifactId : Option String
  sources : Option Path
  resources : Option Path
  classes : Option Path
  classpathDirectory : Option Path
  compiler : Option String
  compilerClasspath : Option (List Path)
  compilerOptions : Option (List String)
  overwrite : Option Bool
  deriving DecidableEq

namespace Configuration

def empty : Configuration where
  application := none
  graph := none
  groupId := none
  artifactId := none
  sources := none
  resources := none
  classes := none
  classpathDirectory := none
  compiler := none
  compilerClasspath := none
  compilerOptions := none
  overwrite := none

/-- The compiler that is taken when none is named. -/
def defaultCompiler : String := "javac"

/-- The directories of a Maven build, with the default compiler. -/
def maven : Configuration :=
  { empty with
    sources := some ⟨"target/spring-aot/main/sources"⟩
    resources := some ⟨"target/spring-aot/main/resources"⟩
    classes := some ⟨"target/spring-aot/main/classes"⟩
    classpathDirectory := some ⟨"target/classes"⟩
    compiler := some defaultCompiler
    overwrite := some false }

/-- A setting of two layers: that of the upper one, if it has it. -/
def overlay (lower upper : Option α) : Option α :=
  match upper with
  | some value => some value
  | none => lower

/-- Lay `upper` over `lower`. Lists are replaced as a whole. -/
def merge (lower upper : Configuration) : Configuration where
  application := overlay lower.application upper.application
  graph := overlay lower.graph upper.graph
  groupId := overlay lower.groupId upper.groupId
  artifactId := overlay lower.artifactId upper.artifactId
  sources := overlay lower.sources upper.sources
  resources := overlay lower.resources upper.resources
  classes := overlay lower.classes upper.classes
  classpathDirectory := overlay lower.classpathDirectory upper.classpathDirectory
  compiler := overlay lower.compiler upper.compiler
  compilerClasspath := overlay lower.compilerClasspath upper.compilerClasspath
  compilerOptions := overlay lower.compilerOptions upper.compilerOptions
  overwrite := overlay lower.overwrite upper.overwrite

/-- The configuration with its inputs, the graph and the classpath of the compiler,
seen from a directory. The directories for output stay as they are. -/
def inputsRelativeTo (configuration : Configuration) (directory : Path) :
    Configuration :=
  { configuration with
    graph := configuration.graph.map directory.join
    compilerClasspath := configuration.compilerClasspath.map (List.map directory.join) }

end Configuration

end AheadOfTime
