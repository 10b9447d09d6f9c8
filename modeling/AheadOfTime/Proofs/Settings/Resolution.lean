import AheadOfTime.Proofs.Configuration
import AheadOfTime.Proofs.Pipeline.Places

/-!
# Where resolved settings lead

A coordinate is a path of one component that is a name.  So the directory for hints and startup
arguments has the components of the directory for resources and four more, and two projects
share neither that directory nor anything in it.
-/

namespace AheadOfTime

namespace Path

theorem components_of_slashless {text : String} (slashless : '/' ∉ text.toList) :
    (⟨text⟩ : Path).components =
      (if text = "." then some Component.here else componentOf? text).toList := by
  have parts : (⟨text⟩ : Path).parts = [text] := by
    rw [Path.parts, Text.split_of_not_mem slashless, List.map_singleton, String.ofList_toList]
  have relative : (⟨text⟩ : Path).isAbsolute = false := by
    rw [isAbsolute, beq_eq_false_iff_ne]
    exact fun begins => slashless (List.mem_of_head? begins)
  rw [components, parts, relative]
  exact List.append_nil _

/-- A text without slashes is one name, unless it is empty or a name that leads up or
nowhere. -/
theorem exists_components_eq_name_iff {text : String} (slashless : '/' ∉ text.toList) :
    (∃ name, (⟨text⟩ : Path).components = [.name name]) ↔ IsName text := by
  rw [components_of_slashless slashless]
  constructor
  · rintro ⟨name, single⟩
    refine ⟨?_, ?_, ?_⟩
    · rintro rfl
      cases single
    · rintro rfl
      cases single
    · rintro rfl
      cases single
  · intro isName
    refine ⟨text, ?_⟩
    rw [if_neg isName.2.1, componentOf?_of_isName isName]
    rfl

end Path

namespace Configuration

theorem isCoordinate_iff_components {text : String} :
    IsCoordinate text ↔ IsVisible text ∧ (∃ name, (⟨text⟩ : Path).components = [.name name]) ∧
      '/' ∉ text.toList ∧ '\\' ∉ text.toList := by
  constructor
  · intro isCoordinate
    have slashless := isCoordinate.slashless
    exact ⟨isCoordinate.visible,
      (Path.exists_components_eq_name_iff slashless).2 isCoordinate.isFileName.1,
      slashless, isCoordinate.backslashless⟩
  · rintro ⟨visible, single, slashless, backslashless⟩
    obtain ⟨-, notHere, notUp⟩ := (Path.exists_components_eq_name_iff slashless).1 single
    exact ⟨visible, slashless, backslashless, notHere, notUp⟩

end Configuration

namespace Settings

/-- Whether all paths of settings begin at the root. -/
structure IsAbsolute (settings : Settings) : Prop where
  graph : ∀ path, settings.graph = some path → path.isAbsolute = true
  sources : settings.sources.isAbsolute = true
  resources : settings.resources.isAbsolute = true
  classes : settings.classes.isAbsolute = true
  classpathDirectory : settings.classpathDirectory.isAbsolute = true
  compilerClasspath : ∀ entry ∈ settings.compilerClasspath, entry.isAbsolute = true

theorem isAbsolute_of_resolvesTo {configuration : Configuration} {workingDirectory : Path}
    {settings : Settings} (absolute : workingDirectory.isAbsolute = true)
    (made : configuration.ResolvesTo workingDirectory settings) : settings.IsAbsolute := by
  have seen {configured : Option Path} {path : Path}
      (joined : configured.map workingDirectory.join = some path) : path.isAbsolute = true := by
    obtain ⟨inner, -, same⟩ := Option.map_eq_some_iff.1 joined
    rw [← same]
    exact Path.isAbsolute_join_of_isAbsolute absolute inner
  constructor
  case graph =>
    intro path isGraph
    exact seen (made.graph.symm.trans isGraph)
  case sources =>
    exact seen made.sources
  case resources =>
    exact seen made.resources
  case classes =>
    exact seen made.classes
  case classpathDirectory =>
    exact seen made.classpathDirectory
  case compilerClasspath =>
    rw [made.compilerClasspath]
    exact List.forall_mem_map.2 fun inner _ =>
      Path.isAbsolute_join_of_isAbsolute absolute inner

section Directory

variable {settings : Settings} (coordinates : settings.HasCoordinates)

include coordinates

theorem nativeImageDirectory_eq :
    settings.nativeImageDirectory =
      settings.resources.join (.ofNames settings.coordinateNames) :=
  (Path.join_ofNames settings.resources (List.cons_ne_nil _ _)
    (isFileName_of_mem_coordinateNames coordinates)).symm

theorem components_nativeImageDirectory :
    settings.nativeImageDirectory.components =
      settings.resources.components ++ settings.coordinateNames.map Component.name := by
  rw [nativeImageDirectory_eq coordinates]
  exact Path.components_join_names settings.resources (List.cons_ne_nil _ _)
    (isFileName_of_mem_coordinateNames coordinates)

theorem place_nativeImageDirectory :
    settings.nativeImageDirectory.place = settings.resources.place ++ settings.coordinateNames := by
  rw [nativeImageDirectory_eq coordinates]
  exact Path.place_join_names settings.resources (List.cons_ne_nil _ _)
    (isFileName_of_mem_coordinateNames coordinates)

end Directory

theorem coordinateNames_eq_iff {first second : Settings} :
    first.coordinateNames = second.coordinateNames ↔
      first.groupId = second.groupId ∧ first.artifactId = second.artifactId := by
  simp [coordinateNames]

section Directories

variable {first second : Settings} (coordinates : first.HasCoordinates)
  (coordinatesToo : second.HasCoordinates)

include coordinates coordinatesToo

theorem components_nativeImageDirectory_eq_iff :
    first.nativeImageDirectory.components = second.nativeImageDirectory.components ↔
      first.resources.components = second.resources.components ∧
        first.groupId = second.groupId ∧ first.artifactId = second.artifactId := by
  rw [components_nativeImageDirectory coordinates,
    components_nativeImageDirectory coordinatesToo, ← coordinateNames_eq_iff]
  have injective : Function.Injective Component.name := fun _ _ => Component.name.inj
  constructor
  · intro same
    obtain ⟨resources, names⟩ := List.append_inj' same rfl
    exact ⟨resources, injective.list_map names⟩
  · rintro ⟨resources, names⟩
    rw [resources, names]

/-- Projects with other coordinates have their hints and startup arguments in other
directories, neither of them in the other. -/
theorem apart_nativeImageDirectory (place : first.resources.place = second.resources.place)
    (other : ¬ (first.groupId = second.groupId ∧ first.artifactId = second.artifactId)) :
    first.nativeImageDirectory.Apart second.nativeImageDirectory := by
  rw [← coordinateNames_eq_iff] at other
  constructor
  · rw [place_nativeImageDirectory coordinates, place_nativeImageDirectory coordinatesToo, place,
      List.prefix_append_right_inj]
    exact fun isPrefix => other (isPrefix.eq_of_length rfl)
  · rw [place_nativeImageDirectory coordinates, place_nativeImageDirectory coordinatesToo, place,
      List.prefix_append_right_inj]
    exact fun isPrefix => other (isPrefix.eq_of_length rfl).symm

end Directories

end Settings

namespace Configuration

/-- A configuration resolves just when it is complete, and otherwise fails for its first fault.
Resolved paths are the configured ones seen from the working directory, and coordinates are
single names: hints and startup arguments are in one directory of their own for each project,
four names below the directory for resources. -/
theorem resolution_is_exact_and_confines_hints (configuration : Configuration)
    (workingDirectory : Path) :
    ((∃ settings, configuration.resolve workingDirectory = .ok settings) ↔
      configuration.IsComplete) ∧
    (∀ error, configuration.resolve workingDirectory = .error error ↔
      configuration.FirstFault checked error) ∧
    (∀ text, IsCoordinate text ↔
      IsVisible text ∧ (∃ name, (⟨text⟩ : Path).components = [.name name]) ∧
        '/' ∉ text.toList ∧ '\\' ∉ text.toList) ∧
    ∀ settings, configuration.resolve workingDirectory = .ok settings →
      configuration.ResolvesTo workingDirectory settings ∧
      (workingDirectory.isAbsolute = true → settings.IsAbsolute) ∧
      settings.nativeImageDirectory.components = settings.resources.components ++
        [.name "META-INF", .name "native-image", .name settings.groupId,
          .name settings.artifactId] ∧
      (∀ name ∈ artifactNames, (settings.nativeImageDirectory.join ⟨name⟩).place =
        settings.resources.place ++
          ["META-INF", "native-image", settings.groupId, settings.artifactId, name]) ∧
      ∀ (configurationToo : Configuration) (workingDirectoryToo : Path) (other : Settings),
        configurationToo.resolve workingDirectoryToo = .ok other →
        (settings.nativeImageDirectory.components = other.nativeImageDirectory.components ↔
          settings.resources.components = other.resources.components ∧
            settings.groupId = other.groupId ∧ settings.artifactId = other.artifactId) ∧
        (settings.resources.place = other.resources.place →
          ¬ (settings.groupId = other.groupId ∧ settings.artifactId = other.artifactId) →
            settings.nativeImageDirectory.Apart other.nativeImageDirectory) := by
  refine ⟨exists_resolve_iff, fun error => resolve_eq_error_iff,
    fun text => isCoordinate_iff_components, ?_⟩
  intro settings resolved
  have made := resolvesTo_of_resolve resolved
  have coordinates := Settings.hasCoordinates_of_resolve resolved
  refine ⟨made, fun absolute => Settings.isAbsolute_of_resolvesTo absolute made,
    Settings.components_nativeImageDirectory coordinates,
    fun name isArtifact =>
      Settings.place_artifactBelow coordinates isArtifact settings.resources, ?_⟩
  intro configurationToo workingDirectoryToo other resolvedToo
  have coordinatesToo := Settings.hasCoordinates_of_resolve resolvedToo
  exact ⟨Settings.components_nativeImageDirectory_eq_iff coordinates coordinatesToo,
    Settings.apart_nativeImageDirectory coordinates coordinatesToo⟩

/-- The layered configuration, for another artifact of the group. -/
def neighbourConfiguration : Configuration :=
  { layeredConfiguration with artifactId := some "b" }

theorem layered_configuration_is_confined :
    let settings : Settings :=
      { application := ⟨[], { text := "App" }⟩
        graph := some ⟨"/work/graph.json"⟩
        sources := ⟨"/work/target/spring-aot/main/sources"⟩
        resources := ⟨"/work/target/spring-aot/main/resources"⟩
        classes := ⟨"/work/target/spring-aot/main/classes"⟩
        classpathDirectory := ⟨"/work/target/classes"⟩
        groupId := "g"
        artifactId := "a"
        compiler := "javac"
        compilerClasspath := [⟨"/work/lib/a.jar"⟩, ⟨"/opt/b.jar"⟩]
        compilerOptions := []
        overwrite := false }
    let other : Settings := { settings with artifactId := "b" }
    layeredConfiguration.resolve ⟨"/work"⟩ = .ok settings ∧
      neighbourConfiguration.resolve ⟨"/work"⟩ = .ok other ∧
      (⟨"/work"⟩ : Path).isAbsolute = true ∧ settings.IsAbsolute ∧
      (settings.nativeImageDirectory.join ⟨"native-image.properties"⟩).place =
        ["work", "target", "spring-aot", "main", "resources", "META-INF", "native-image", "g",
          "a", "native-image.properties"] ∧
      settings.nativeImageDirectory.Apart other.nativeImageDirectory := by
  intro settings other
  have absolute : (⟨"/work"⟩ : Path).isAbsolute = true := by decide
  have resolved : layeredConfiguration.resolve ⟨"/work"⟩ = .ok settings := by decide +kernel
  have resolvedToo : neighbourConfiguration.resolve ⟨"/work"⟩ = .ok other := by decide +kernel
  obtain ⟨-, -, -, resolves⟩ :=
    resolution_is_exact_and_confines_hints layeredConfiguration ⟨"/work"⟩
  obtain ⟨-, isAbsolute, -, artifacts, others⟩ := resolves settings resolved
  have place := artifacts "native-image.properties" (by decide)
  exact ⟨resolved, resolvedToo, absolute, isAbsolute absolute,
    place.trans (by decide +kernel),
    (others neighbourConfiguration ⟨"/work"⟩ other resolvedToo).2 rfl (by decide)⟩

end Configuration

end AheadOfTime
