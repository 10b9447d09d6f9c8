import AheadOfTime.Artifacts
import AheadOfTime.Proofs.Path.Below
import AheadOfTime.Proofs.Settings

/-!
# Where artifacts go

The source file of a type has its place below the directory for sources, one name for each
part of the type's name.  Hints and startup arguments are files of a few names in one
directory, so none of them is a source file.
-/

namespace AheadOfTime

theorem Identifier.isFileName (name : Identifier) : Path.IsFileName name.text := by
  have nonempty : name.text ≠ "" := by
    intro empty
    have chars := name.chars_ne_nil
    rw [Identifier.chars, empty] at chars
    exact chars rfl
  have dotless := name.dot_not_mem
  have slashless : '/' ∉ name.chars := by
    intro member
    exact absurd (name.isIdentifierPart_of_mem member) (by decide)
  refine ⟨⟨nonempty, ?_, ?_⟩, slashless⟩
  · intro here
    rw [Identifier.chars, here] at dotless
    exact dotless (by decide)
  · intro up
    rw [Identifier.chars, up] at dotless
    exact dotless (by decide)

theorem Identifier.isFileName_source (name : Identifier) :
    Path.IsFileName (name.text ++ ".java") := by
  have text : (name.text ++ ".java").toList = name.chars ++ ".java".toList :=
    String.toList_append
  have long : 5 ≤ (name.text ++ ".java").toList.length := by
    have five : ".java".toList.length = 5 := by decide
    rw [text, List.length_append, five]
    omega
  have unlike : ∀ short : String, short.toList.length < 5 → name.text ++ ".java" ≠ short := by
    intro short bound same
    rw [same] at long
    omega
  refine ⟨⟨unlike "" (by decide), unlike "." (by decide), unlike ".." (by decide)⟩, ?_⟩
  rw [text, List.mem_append, not_or]
  exact ⟨name.isFileName.2, by decide⟩

namespace TypeName

/-- The names that lead to the source file of a type below a directory for sources. -/
def sourceNames (type : TypeName) : List String :=
  type.package.map Identifier.text ++ [type.simple.text ++ ".java"]

theorem isFileName_of_mem_sourceNames {type : TypeName} {name : String}
    (member : name ∈ type.sourceNames) : Path.IsFileName name := by
  rcases List.mem_append.1 member with package | last
  · obtain ⟨part, -, same⟩ := List.mem_map.1 package
    rw [← same]
    exact part.isFileName
  · rw [List.mem_singleton.1 last]
    exact type.simple.isFileName_source

theorem sourceNames_ne_nil (type : TypeName) : type.sourceNames ≠ [] :=
  List.append_ne_nil_of_right_ne_nil _ (List.cons_ne_nil _ _)

theorem parts_sourcePath (type : TypeName) : type.sourcePath.parts = type.sourceNames :=
  Path.parts_ofNames type.sourceNames_ne_nil fun _ member =>
    isFileName_of_mem_sourceNames member

theorem isAbsolute_sourcePath (type : TypeName) : type.sourcePath.isAbsolute = false :=
  Path.isAbsolute_ofNames type.sourceNames_ne_nil fun _ member =>
    isFileName_of_mem_sourceNames member

/-- What is on the way of a source file is on the way of the directory for sources, or in
it. -/
theorem visits_or_prefix_of_visits_join {directory : Path} {type : TypeName} {place : Place}
    (visits : (directory.join type.sourcePath).Visits place) :
    directory.Visits place ∨ directory.place <+: place := by
  rcases Path.Visits.of_join type.isAbsolute_sourcePath visits with above | below
  · exact .inl above
  · obtain ⟨parts, ⟨rest, whole⟩, same⟩ := below
    have names : ∀ part ∈ parts, Path.IsName part := by
      intro part member
      have isPart : part ∈ type.sourcePath.parts := by
        rw [← whole]
        exact List.mem_append_left rest member
      rw [parts_sourcePath] at isPart
      exact (isFileName_of_mem_sourceNames isPart).1
    rw [Path.placeFrom_of_isName _ names] at same
    exact .inr ⟨parts, same.symm⟩

theorem place_join_sourcePath (directory : Path) (type : TypeName) :
    (directory.join type.sourcePath).place = directory.place ++ type.sourceNames := by
  rw [Path.place_join directory type.isAbsolute_sourcePath, parts_sourcePath]
  exact Path.placeFrom_of_isName _ fun _ member => (isFileName_of_mem_sourceNames member).1

end TypeName

/-- The names of the files for hints and startup arguments. -/
def artifactNames : List String :=
  ["reflect-config.json", "resource-config.json", "proxy-config.json",
    "serialization-config.json", StartupArguments.fileName]

/-- The files of hints come in one order, each at most once. -/
theorem NativeConfiguration.sublist_names_files (configuration : NativeConfiguration) :
    (configuration.files.map ConfigurationFile.name).Sublist
      ["reflect-config.json", "resource-config.json", "proxy-config.json",
        "serialization-config.json"] := by
  have one : ∀ (name : String) (holds : Bool) (document : Document),
      ((file name holds document).map ConfigurationFile.name).Sublist [name] := by
    intro name holds document
    cases holds with
    | false =>
        exact List.nil_sublist _
    | true =>
        exact List.Sublist.refl _
  simp only [files, List.map_append]
  exact (((one _ _ _).append (one _ _ _)).append (one _ _ _)).append (one _ _ _)

theorem NativeConfiguration.name_mem_artifactNames {configuration : NativeConfiguration}
    {written : ConfigurationFile} (member : written ∈ configuration.files) :
    written.name ∈ artifactNames :=
  List.mem_append_left [StartupArguments.fileName]
    (configuration.sublist_names_files.subset (List.mem_map_of_mem member))

/-- A file that is rendered has text. -/
theorem NativeConfiguration.toUTF8_contents_ne_empty {configuration : NativeConfiguration}
    {written : ConfigurationFile} (member : written ∈ configuration.files) :
    written.contents.toUTF8 ≠ .empty := by
  have rendered : ∃ document, written.contents = Json.fileText document := by
    have one : ∀ {name : String} {holds : Bool} {document : Document},
        written ∈ file name holds document →
          ∃ document, written.contents = Json.fileText document := by
      intro name holds document isFile
      cases holds with
      | false =>
          cases isFile
      | true =>
          exact ⟨document, by rw [List.mem_singleton.1 isFile]⟩
    rw [files, List.mem_append, List.mem_append, List.mem_append] at member
    rcases member with ((reflection | resources) | proxies) | serialization
    · exact one reflection
    · exact one resources
    · exact one proxies
    · exact one serialization
  obtain ⟨document, text⟩ := rendered
  intro empty
  have textless : written.contents = "" := String.toByteArray_inj.1 empty
  have chars : Json.pretty 0 document ++ ['\n'] = [] := by
    rw [text, Json.fileText] at textless
    exact String.ofList_eq_empty_iff.1 textless
  cases (List.append_eq_nil_iff.1 chars).2

theorem isFileName_of_mem_artifactNames {name : String} (member : name ∈ artifactNames) :
    Path.IsFileName name := by
  have each : ∀ name ∈ artifactNames,
      (name ≠ "" ∧ name ≠ "." ∧ name ≠ "..") ∧ '/' ∉ name.toList := by
    decide
  exact each name member

/-- No file for hints or startup arguments is the source file of a type. -/
theorem place_artifact_ne_place_source (sources directory : Path) (type : TypeName)
    {name : String} (member : name ∈ artifactNames) :
    (directory.join ⟨name⟩).place ≠ (sources.join type.sourcePath).place := by
  intro same
  rw [Path.place_join_name directory (isFileName_of_mem_artifactNames member),
    TypeName.place_join_sourcePath, TypeName.sourceNames, ← List.append_assoc] at same
  have names : name = type.simple.text ++ ".java" := by
    have last := List.append_inj_right' same rfl
    exact (List.cons.inj last).1
  have suffix : ".java".toList <:+ name.toList := by
    rw [names, String.toList_append]
    exact List.suffix_append _ _
  have otherEnd : ∀ name ∈ artifactNames, ¬ ".java".toList <:+ name.toList := by
    decide
  exact otherEnd name member suffix

namespace Settings

/-- The names that lead to the directory for hints and startup arguments below a directory for
resources. -/
def coordinateNames (settings : Settings) : List String :=
  ["META-INF", "native-image", settings.groupId, settings.artifactId]

/-- The names that lead to an artifact below a directory for resources. -/
def wayTo (settings : Settings) (name : String) : Place :=
  ["META-INF", "native-image", settings.groupId, settings.artifactId, name]

def artifactBelow (settings : Settings) (directory : Path) (name : String) : Path :=
  (nativeImageDirectoryOf directory settings.groupId settings.artifactId).join ⟨name⟩

/-- Whether the coordinates of the project are names of directories. -/
structure HasCoordinates (settings : Settings) : Prop where
  group : Path.IsFileName settings.groupId
  artifact : Path.IsFileName settings.artifactId

theorem hasCoordinates_of_resolve {configuration : Configuration} {workingDirectory : Path}
    {settings : Settings}
    (resolved : configuration.resolve workingDirectory = .ok settings) :
    settings.HasCoordinates := by
  obtain ⟨group, artifact⟩ := Configuration.isCoordinate_of_resolve resolved
  exact ⟨group.isFileName, artifact.isFileName⟩

theorem isFileName_of_mem_coordinateNames {settings : Settings}
    (coordinates : settings.HasCoordinates) :
    ∀ name ∈ settings.coordinateNames, Path.IsFileName name := by
  have metaInf : Path.IsFileName "META-INF" := ⟨⟨by decide, by decide, by decide⟩, by decide⟩
  have nativeImage : Path.IsFileName "native-image" :=
    ⟨⟨by decide, by decide, by decide⟩, by decide⟩
  simp only [coordinateNames, List.forall_mem_cons]
  exact ⟨metaInf, nativeImage, coordinates.group, coordinates.artifact, List.forall_mem_nil _⟩

section Artifacts

variable {settings : Settings} (coordinates : settings.HasCoordinates) {name : String}
  (isArtifact : name ∈ artifactNames)

include coordinates isArtifact

theorem isFileName_of_mem_wayTo : ∀ part ∈ settings.wayTo name, Path.IsFileName part :=
  List.forall_mem_append.2 ⟨isFileName_of_mem_coordinateNames coordinates,
    List.forall_mem_singleton.2 (isFileName_of_mem_artifactNames isArtifact)⟩

theorem artifactBelow_eq (directory : Path) :
    settings.artifactBelow directory name = directory.join (.ofNames (settings.wayTo name)) :=
  (Path.join_ofNames directory (List.cons_ne_nil _ _)
    (isFileName_of_mem_wayTo coordinates isArtifact)).symm

theorem place_artifactBelow (directory : Path) :
    (settings.artifactBelow directory name).place =
      directory.place ++ settings.wayTo name := by
  rw [artifactBelow_eq coordinates isArtifact]
  exact Path.place_join_names directory (List.cons_ne_nil _ _)
    (isFileName_of_mem_wayTo coordinates isArtifact)

theorem isBelow_artifactBelow (directory : Path) :
    directory.IsBelow (settings.artifactBelow directory name) := by
  rw [artifactBelow_eq coordinates isArtifact]
  exact Path.isBelow_join_ofNames directory (List.cons_ne_nil _ _)
    (isFileName_of_mem_wayTo coordinates isArtifact)

end Artifacts

theorem nodup_names_files (configuration : NativeConfiguration) :
    (configuration.files.map ConfigurationFile.name).Nodup ∧
      StartupArguments.fileName ∉ configuration.files.map ConfigurationFile.name := by
  have sub := configuration.sublist_names_files
  have distinct : ["reflect-config.json", "resource-config.json", "proxy-config.json",
      "serialization-config.json"].Nodup := by
    decide
  have absent : StartupArguments.fileName ∉ ["reflect-config.json", "resource-config.json",
      "proxy-config.json", "serialization-config.json"] := by
    decide
  exact ⟨distinct.sublist sub, fun member => absent (sub.subset member)⟩

end Settings

end AheadOfTime
