import AheadOfTime.Proofs.Collection
import AheadOfTime.Proofs.Pipeline.Progress

/-!
# What a finished run delivers

Hints and startup arguments are written below the directory for resources and collected
into the directory for the class path, under the same names.  They arrive there as they
were written, or as the directory for classes holds them, unless collecting writes over one
of them before it is read.
-/

namespace AheadOfTime

/-- The hints that have been written are there as they were rendered. -/
theorem FileTree.of_writeHints {tree after : FileTree} {hints : HintRegistry}
    {directory : Path} {paths : List Path}
    (ends : tree.writeHints hints directory = (.ok paths, after)) :
    paths = (NativeConfiguration.ofRegistry hints).files.map
        (fun file => directory.join ⟨file.name⟩) ∧
      ∀ file ∈ (NativeConfiguration.ofRegistry hints).files,
        after.read? (directory.join ⟨file.name⟩) = some file.contents.toUTF8 := by
  obtain ⟨distinct, -⟩ := Settings.nodup_names_files (NativeConfiguration.ofRegistry hints)
  have places : ∀ file ∈ (NativeConfiguration.ofRegistry hints).files,
      (directory.join ⟨file.name⟩).place = directory.place ++ [file.name] := fun file member =>
    Path.place_join_name _ (isFileName_of_mem_artifactNames
      (NativeConfiguration.name_mem_artifactNames member))
  have names := distinct.map (f := fun name => directory.place ++ [name])
    fun first second same => (List.cons.inj (List.append_cancel_left same)).1
  have apart : (((NativeConfiguration.ofRegistry hints).files.map fun file =>
      (directory.join ⟨file.name⟩, file.contents)).map fun file => file.1.place).Nodup := by
    rw [List.map_map] at names ⊢
    refine (congrArg List.Nodup ?_).mpr names
    exact List.map_congr_left fun file member => places file member
  rw [writeHints] at ends
  obtain ⟨same, reads⟩ := of_writeTexts apart ends
  constructor
  · rw [same, List.map_map]
    rfl
  · intro file member
    exact reads (directory.join ⟨file.name⟩, file.contents) (List.mem_map.2 ⟨file, member, rfl⟩)

namespace Pipeline.Trace

variable {settings : Settings} {host : Host} {graph : Graph} {before after : Workspace}
  {outcome : RunOutcome} (trace : Trace settings host graph before outcome after)

include trace

theorem writes_hinted : FileTree.Writes (hintPaths settings outcome.hints) trace.compiled.files
    trace.hinted := by
  have writes := FileTree.writes_writeTexts trace.compiled.files
    ((NativeConfiguration.ofRegistry outcome.hints).files.map fun file =>
      (settings.nativeImageDirectory.join ⟨file.name⟩, file.contents))
  have hints := trace.writesHints
  rw [FileTree.writeHints] at hints
  rw [hints, List.map_map] at writes
  exact writes

theorem writes_prepared : FileTree.Writes [StartupArguments.path settings] trace.hinted
    trace.prepared := by
  have writes := StartupArguments.writes_write settings trace.hinted
  rw [trace.writesArguments] at writes
  exact writes

theorem writes_overlaid : FileTree.Writes
    ((trace.prepared.collectionPlan settings.resources settings.classpathDirectory).map Prod.snd)
    trace.prepared trace.overlaid := by
  have writes := FileTree.writes_copyFiles trace.prepared
    (trace.prepared.collectionPlan settings.resources settings.classpathDirectory)
  rw [trace.copiesResources] at writes
  exact writes

theorem writes_after : FileTree.Writes
    ((trace.overlaid.collectionPlan settings.classes settings.classpathDirectory).map Prod.snd)
    trace.overlaid after.files := by
  have writes := FileTree.writes_copyFiles trace.overlaid
    (trace.overlaid.collectionPlan settings.classes settings.classpathDirectory)
  rw [trace.copiesClasses] at writes
  exact writes

/-- The hints are there as they were rendered when collecting begins. -/
theorem read?_hints :
    outcome.hintFiles = (NativeConfiguration.ofRegistry outcome.hints).files.map
        (fun file => settings.nativeImageDirectory.join ⟨file.name⟩) ∧
      ∀ file ∈ (NativeConfiguration.ofRegistry outcome.hints).files,
        trace.prepared.read? (settings.nativeImageDirectory.join ⟨file.name⟩) =
          some file.contents.toUTF8 := by
  obtain ⟨hintFiles, reads⟩ := FileTree.of_writeHints trace.writesHints
  refine ⟨hintFiles, ?_⟩
  intro file member
  refine FileTree.read?_of_writes trace.writes_prepared (reads file member) ?_
  intro other isArguments same
  rw [List.mem_singleton.1 isArguments] at same
  exact place_arguments_ne_place_hint (List.mem_map.2 ⟨file, member, rfl⟩) same.symm

/-- The startup arguments are there when collecting begins. -/
theorem exists_read?_arguments :
    ∃ contents, trace.prepared.read? (StartupArguments.path settings) = some contents :=
  StartupArguments.exists_read?_of_write trace.writesArguments

section Artifact

variable (coordinates : settings.HasCoordinates) {name : String}
  (isArtifact : name ∈ artifactNames)

include coordinates isArtifact

/-- The directory for resources offers an artifact that is there when collecting begins. -/
theorem offered?_prepared (listable : settings.resources.IsListable) {contents : ByteArray}
    (reads : trace.prepared.read? (settings.nativeImageDirectory.join ⟨name⟩) =
      some contents) :
    trace.prepared.offered? settings.resources (settings.wayTo name) = some contents := by
  have isBelow : settings.nativeImageDirectory.join ⟨name⟩ =
      settings.resources.join (.ofNames (settings.wayTo name)) :=
    Settings.artifactBelow_eq coordinates isArtifact settings.resources
  rw [isBelow] at reads
  exact FileTree.offered?_of_read? listable (List.cons_ne_nil _ _)
    (Settings.isFileName_of_mem_wayTo coordinates isArtifact) reads

/-- The way to an artifact that has arrived leads there to the end. -/
theorem locate?_delivered {contents : ByteArray}
    (offered : trace.prepared.offered? settings.resources (settings.wayTo name) =
      some contents) :
    after.files.locate? (settings.artifactBelow settings.classpathDirectory name) =
      some (settings.artifactBelow settings.classpathDirectory name).place := by
  have arrived := FileTree.locate?_of_offered trace.copiesResources offered
  rw [Settings.artifactBelow_eq coordinates isArtifact]
  exact FileTree.locate?_of_edits trace.writes_after arrived

/-- An artifact is delivered as it was written, or as the directory for classes offers
it. -/
theorem read?_delivered {contents : ByteArray}
    (offered : trace.prepared.offered? settings.resources (settings.wayTo name) =
      some contents)
    (unspoiled : ¬ trace.prepared.IsSpoiled settings.resources settings.classpathDirectory
      (settings.wayTo name))
    (unspoiledClasses : ¬ trace.overlaid.IsSpoiled settings.classes
      settings.classpathDirectory (settings.wayTo name)) :
    after.files.read? (settings.artifactBelow settings.classpathDirectory name) =
      some ((trace.overlaid.offered? settings.classes (settings.wayTo name)).getD
        contents) := by
  have leads := trace.locate?_delivered coordinates isArtifact offered
  rw [FileTree.read?_eq_contents? leads, Settings.place_artifactBelow coordinates isArtifact]
  cases classes : trace.overlaid.offered? settings.classes (settings.wayTo name) with
  | none =>
      rw [FileTree.contents?_of_not_offered trace.copiesClasses classes]
      exact FileTree.contents?_of_offered trace.copiesResources offered unspoiled
  | some found =>
      exact FileTree.contents?_of_offered trace.copiesClasses classes unspoiledClasses

/-- Where the directory for resources is collected into itself, an artifact arrives empty. -/
theorem read?_emptied {contents : ByteArray}
    (same : settings.resources.place = settings.classpathDirectory.place)
    (offered : trace.prepared.offered? settings.resources (settings.wayTo name) =
      some contents)
    (absent : trace.overlaid.offered? settings.classes (settings.wayTo name) = none) :
    after.files.read? (settings.artifactBelow settings.classpathDirectory name) =
      some .empty := by
  have leads := trace.locate?_delivered coordinates isArtifact offered
  rw [FileTree.read?_eq_contents? leads, Settings.place_artifactBelow coordinates isArtifact,
    FileTree.contents?_of_not_offered trace.copiesClasses absent]
  exact FileTree.contents?_of_self trace.copiesResources same offered

end Artifact

end Pipeline.Trace

namespace Pipeline

/-- A run that goes through delivers hints and startup arguments: below the directory for
the class path, each file holds what it held below the directory for resources before it was
collected, which for hints is what was rendered, or else what the directory for classes
offered under its names by then.  The exceptions are the files that collecting writes over
before it reads them, and directories for resources that begin with a dot. -/
theorem finished_run_delivers_artifacts {configuration : Configuration}
    {workingDirectory : Path} {settings : Settings}
    (resolved : configuration.resolve workingDirectory = .ok settings) {host : Host}
    {graph : Graph} {before after : Workspace} {outcome : RunOutcome} {pipeline : Pipeline}
    (ran : (start settings host).run graph before = (.ok outcome, pipeline, after))
    (listable : settings.resources.IsListable) :
    ∃ trace : Trace settings host graph before outcome after,
      outcome.hintFiles = (NativeConfiguration.ofRegistry outcome.hints).files.map
        (fun file => settings.artifactBelow settings.resources file.name) ∧
      ∀ name, (name = StartupArguments.fileName ∨
          name ∈ (NativeConfiguration.ofRegistry outcome.hints).files.map
            ConfigurationFile.name) →
        ∃ contents,
          trace.prepared.read? (settings.artifactBelow settings.resources name) =
            some contents ∧
          (∀ file ∈ (NativeConfiguration.ofRegistry outcome.hints).files,
            file.name = name → contents = file.contents.toUTF8) ∧
          (¬ trace.prepared.IsSpoiled settings.resources settings.classpathDirectory
              (settings.wayTo name) →
            ¬ trace.overlaid.IsSpoiled settings.classes settings.classpathDirectory
              (settings.wayTo name) →
            after.files.read? (settings.artifactBelow settings.classpathDirectory name) =
              some ((trace.overlaid.offered? settings.classes (settings.wayTo name)).getD
                contents)) := by
  have coordinates := Settings.hasCoordinates_of_resolve resolved
  obtain ⟨-, ⟨trace⟩⟩ := run_eq_ok_iff.1 ran
  obtain ⟨hintFiles, reads⟩ := trace.read?_hints
  refine ⟨trace, hintFiles, ?_⟩
  have delivers : ∀ name ∈ artifactNames, ∀ contents,
      trace.prepared.read? (settings.artifactBelow settings.resources name) = some contents →
      ¬ trace.prepared.IsSpoiled settings.resources settings.classpathDirectory
          (settings.wayTo name) →
        ¬ trace.overlaid.IsSpoiled settings.classes settings.classpathDirectory
          (settings.wayTo name) →
        after.files.read? (settings.artifactBelow settings.classpathDirectory name) =
          some ((trace.overlaid.offered? settings.classes (settings.wayTo name)).getD
            contents) := by
    intro name isArtifact contents holds
    exact trace.read?_delivered coordinates isArtifact
      (trace.offered?_prepared coordinates isArtifact listable holds)
  rintro name (isArguments | isHint)
  · obtain ⟨contents, holds⟩ := trace.exists_read?_arguments
    obtain ⟨-, absent⟩ :=
      Settings.nodup_names_files (NativeConfiguration.ofRegistry outcome.hints)
    rw [isArguments]
    refine ⟨contents, holds, ?_, delivers _ (by decide) contents holds⟩
    intro file member same
    exact absurd (List.mem_map.2 ⟨file, member, same⟩) absent
  · obtain ⟨file, member, isName⟩ := List.mem_map.1 isHint
    have isArtifact := NativeConfiguration.name_mem_artifactNames member
    have holds := reads file member
    rw [← isName]
    refine ⟨file.contents.toUTF8, holds, ?_, delivers _ isArtifact _ holds⟩
    intro other memberOther same
    have distinct := (Settings.nodup_names_files
      (NativeConfiguration.ofRegistry outcome.hints)).1
    rw [List.inj_on_of_nodup_map distinct memberOther member same]

/-! ## Trees of directories -/

/-- In a tree of directories there are no files. -/
theorem contents?_of_directories {tree : FileTree}
    (directories : ∀ entry ∈ tree.entries, entry.2 = .directory) (place : Place) :
    tree.contents? place = none := by
  rw [FileTree.contents?]
  by_cases root : place = []
  · rw [FileTree.node?, nodeAt?, if_pos root]
  · rw [FileTree.node?_of_ne_nil _ root]
    cases found : tree.entries.lookup place with
    | none =>
        rfl
    | some node =>
        have isDirectory : node = .directory := directories _ (FileTree.mem_of_lookup found)
        rw [isDirectory]

/-- There is room for new names in the directories that are there. -/
theorem hasRoom_of_new {tree : FileTree} {directory : Path}
    (isOpen : directory.IsBase ∧ tree.isDirectory directory = true) {name : String}
    (isFileName : Path.IsFileName name)
    (usable : FileTree.isUsableName name = true ∧ '\x00' ∉ name.toList)
    (new : ∀ entry ∈ tree.entries, entry.1.getLast? ≠ some name) :
    tree.HasRoom (directory.join ⟨name⟩) := by
  refine FileTree.hasRoom_join isOpen.1.listable isOpen.1.ends isOpen.2 isFileName usable.1
    usable.2 ?_
  intro found
  rw [FileTree.node?_of_ne_nil _ (List.append_ne_nil_of_right_ne_nil _ (List.cons_ne_nil _ _))]
    at found
  exact new _ (FileTree.mem_of_lookup found) List.getLast?_concat

/-- A tree is ready for a run with one source file if the directories of the run are there
and apart, those for resources and classes without files, and nothing has the name of a file
that is written. -/
theorem ready_of_directories {settings : Settings} (coordinates : settings.HasCoordinates)
    {tree : FileTree}
    (bare : ∀ place, settings.resources.place <+: place ∨ settings.classes.place <+: place →
      tree.contents? place = none)
    {generated : Generated} {source : String}
    (sources : generated.units.map (fun unit => unit.name.sourcePath) = [⟨source⟩])
    (isFileName : Path.IsFileName source)
    (usable : FileTree.isUsableName source = true ∧ '\x00' ∉ source.toList)
    (new : ∀ name ∈ source :: artifactNames, ∀ entry ∈ tree.entries,
      entry.1.getLast? ≠ some name)
    (sourcesOpen : settings.sources.IsBase ∧ tree.isDirectory settings.sources = true)
    (resourcesOpen : settings.nativeImageDirectory.IsBase ∧
      tree.isDirectory settings.nativeImageDirectory = true)
    (deliveryOpen : (Settings.nativeImageDirectoryOf settings.classpathDirectory
        settings.groupId settings.artifactId).IsBase ∧
      tree.isDirectory (Settings.nativeImageDirectoryOf settings.classpathDirectory
        settings.groupId settings.artifactId) = true)
    (classes : tree.isDirectory settings.classes = true)
    (listed : settings.resources.listed = settings.resources)
    (sourcesApart : settings.classes.Apart settings.sources)
    (resourcesApart : settings.classes.Apart settings.resources)
    (deliveryApart : settings.classes.Apart settings.classpathDirectory)
    (apart : settings.resources.Apart settings.sources) : Ready settings generated tree := by
  obtain ⟨newSource, newArtifact⟩ := List.forall_mem_cons.1 new
  have isSource : ∀ path ∈ sourcePaths settings generated,
      path = settings.sources.join ⟨source⟩ := by
    intro path member
    obtain ⟨unit, isUnit, same⟩ := List.mem_map.1 member
    have isPath : unit.name.sourcePath ∈
        generated.units.map (fun unit => unit.name.sourcePath) :=
      List.mem_map.2 ⟨unit, isUnit, rfl⟩
    rw [sources, List.mem_singleton] at isPath
    rw [← same, isPath]
  have sourceBelow : settings.sources.IsBelow (settings.sources.join ⟨source⟩) := by
    rw [← Path.ofNames_singleton isFileName]
    exact Path.isBelow_join_ofNames _ (List.cons_ne_nil _ _)
      (List.forall_mem_singleton.2 isFileName)
  have usableArtifact : ∀ name ∈ artifactNames,
      FileTree.isUsableName name = true ∧ '\x00' ∉ name.toList := by
    decide
  refine ⟨bare, ?_, classes, listed, ?_, ?_⟩
  · intro path member
    rcases mem_writtenPaths_iff.1 member with written | ⟨name, isArtifact, below | delivered⟩
    · rw [isSource path written]
      exact hasRoom_of_new sourcesOpen isFileName usable newSource
    · rw [below]
      exact hasRoom_of_new resourcesOpen (isFileName_of_mem_artifactNames isArtifact)
        (usableArtifact name isArtifact) (newArtifact name isArtifact)
    · rw [delivered]
      exact hasRoom_of_new deliveryOpen (isFileName_of_mem_artifactNames isArtifact)
        (usableArtifact name isArtifact) (newArtifact name isArtifact)
  · intro path member
    rcases mem_writtenPaths_iff.1 member with written | ⟨name, isArtifact, below | delivered⟩
    · rw [isSource path written]
      exact sourcesApart.outside sourceBelow
    · rw [below]
      exact resourcesApart.outside (Settings.isBelow_artifactBelow coordinates isArtifact _)
    · rw [delivered]
      exact deliveryApart.outside (Settings.isBelow_artifactBelow coordinates isArtifact _)
  · intro path member
    rw [isSource path member]
    exact apart.outside sourceBelow

/-- An application without beans, with its files in four directories below the root. -/
def bareConfiguration (classpathDirectory : Path) : Configuration :=
  { Configuration.empty with
    application := some ⟨[], { text := "App" }⟩
    groupId := some "g"
    artifactId := some "a"
    sources := some ⟨"s"⟩
    resources := some ⟨"r"⟩
    classes := some ⟨"k"⟩
    classpathDirectory := some classpathDirectory }

def bareSettings (classpathDirectory : Path) : Settings where
  application := ⟨[], { text := "App" }⟩
  graph := none
  sources := ⟨"/s"⟩
  resources := ⟨"/r"⟩
  classes := ⟨"/k"⟩
  classpathDirectory := classpathDirectory
  groupId := "g"
  artifactId := "a"
  compiler := "javac"
  compilerClasspath := []
  compilerOptions := []
  overwrite := false

def bareGraph : Graph :=
  ⟨⟨[], { text := "App" }⟩, [], []⟩

/-- A host that compiles without a message and without a class. -/
def idleHost : Host :=
  ⟨"javac", fun _ tree => (.ok ⟨true, [], []⟩, tree)⟩

def artifactDirectories (directory : String) : List (Place × Node) :=
  [([directory], .directory),
    ([directory, "META-INF"], .directory),
    ([directory, "META-INF", "native-image"], .directory),
    ([directory, "META-INF", "native-image", "g"], .directory),
    ([directory, "META-INF", "native-image", "g", "a"], .directory)]

/-- The directories that are there before a run. -/
def bareTree : FileTree where
  entries := [(["s"], .directory), (["k"], .directory)] ++
    artifactDirectories "r" ++ artifactDirectories "d"
  below := by decide
  distinct := by decide
  named := by decide +kernel
  rooted := by decide +kernel

theorem exists_bareGenerated : ∃ generated context,
    bareGraph.generate .empty = (.ok generated, context) ∧
      generated.units.map (fun unit => unit.name.sourcePath) =
        [⟨"App__ApplicationContextInitializer.java"⟩] ∧
      (NativeConfiguration.ofRegistry context.hints).files.map ConfigurationFile.name =
        ["reflect-config.json"] := by
  have units : (bareGraph.generate .empty).1.toOption.map (fun generated =>
      generated.units.map (fun unit => unit.name.sourcePath)) =
        some [⟨"App__ApplicationContextInitializer.java"⟩] := by
    decide +kernel
  have files : (NativeConfiguration.ofRegistry
      (bareGraph.generate .empty).2.hints).files.map ConfigurationFile.name =
        ["reflect-config.json"] := by
    decide +kernel
  cases generates : bareGraph.generate .empty with
  | mk result context =>
      rw [generates] at units files
      cases result with
      | error error =>
          cases units
      | ok generated =>
          exact ⟨generated, context, rfl, Option.some.inj units, files⟩

theorem bareCoordinates (classpathDirectory : Path) :
    (bareSettings classpathDirectory).HasCoordinates := by
  have group : Path.IsFileName "g" := by decide
  have artifact : Path.IsFileName "a" := by decide
  exact ⟨group, artifact⟩

/-- The directories are there for a run that delivers into one of them. -/
theorem bareReady {directory : Path} {first : String} (place : directory.place = [first])
    (apart : first ≠ "k")
    (leads : (Settings.nativeImageDirectoryOf directory "g" "a").parts =
      ["", first, "META-INF", "native-image", "g", "a"])
    (there : bareTree.isDirectory (Settings.nativeImageDirectoryOf directory "g" "a") = true)
    {generated : Generated}
    (sources : generated.units.map (fun unit => unit.name.sourcePath) =
      [⟨"App__ApplicationContextInitializer.java"⟩]) :
    Ready (bareSettings directory) generated bareTree := by
  have sourcesBase : (⟨"/s"⟩ : Path).IsBase := ⟨by decide, [""], "s", by decide, by decide⟩
  have resourcesBase : (Settings.nativeImageDirectoryOf ⟨"/r"⟩ "g" "a").IsBase :=
    ⟨by decide +kernel, ["", "r", "META-INF", "native-image", "g"], "a", by decide +kernel,
      by decide⟩
  have deliveryBase : (Settings.nativeImageDirectoryOf directory "g" "a").IsBase := by
    refine ⟨⟨?_, ?_⟩, ["", first, "META-INF", "native-image", "g"], "a", leads, by decide⟩
    · intro empty
      rw [Path.parts, empty] at leads
      cases leads
    · rw [leads]
      exact fun dot => absurd (Option.some.inj dot) (by decide)
  have sourcesThere : bareTree.isDirectory ⟨"/s"⟩ = true := by decide
  have resourcesThere : bareTree.isDirectory
      (Settings.nativeImageDirectoryOf ⟨"/r"⟩ "g" "a") = true := by
    decide +kernel
  have classesThere : bareTree.isDirectory ⟨"/k"⟩ = true := by decide
  have listed : (⟨"/r"⟩ : Path).listed = ⟨"/r"⟩ := by decide
  have sourcesApart : (⟨"/k"⟩ : Path).Apart ⟨"/s"⟩ := ⟨by decide, by decide⟩
  have resourcesApart : (⟨"/k"⟩ : Path).Apart ⟨"/r"⟩ := ⟨by decide, by decide⟩
  have deliveryApart : (⟨"/k"⟩ : Path).Apart directory := by
    have classesPlace : (⟨"/k"⟩ : Path).place = ["k"] := by decide
    constructor
    · rw [place, classesPlace]
      exact fun isPrefix => apart (List.cons_prefix_cons.1 isPrefix).1.symm
    · rw [place, classesPlace]
      exact fun isPrefix => apart (List.cons_prefix_cons.1 isPrefix).1
  have apartFromSources : (⟨"/r"⟩ : Path).Apart ⟨"/s"⟩ := ⟨by decide, by decide⟩
  exact ready_of_directories (bareCoordinates directory)
    (fun place _ => contents?_of_directories (by decide) place) sources
    (by decide) (by decide) (by decide) ⟨sourcesBase, sourcesThere⟩
    ⟨resourcesBase, resourcesThere⟩ ⟨deliveryBase, there⟩ classesThere listed sourcesApart
    resourcesApart deliveryApart apartFromSources

theorem idleHost_isQuiet : idleHost.IsQuiet :=
  fun _ _ => rfl

/-- A run for the bare application goes through, with a file of hints and no classes. -/
theorem exists_bareTrace {directory : Path} {first : String}
    (place : directory.place = [first]) (apart : first ≠ "k")
    (leads : (Settings.nativeImageDirectoryOf directory "g" "a").parts =
      ["", first, "META-INF", "native-image", "g", "a"])
    (there : bareTree.isDirectory (Settings.nativeImageDirectoryOf directory "g" "a") = true) :
    ∃ outcome after,
      ∃ trace : Trace (bareSettings directory) idleHost bareGraph ⟨bareTree, []⟩ outcome after,
        (∀ names, trace.overlaid.offered? (bareSettings directory).classes names = none) ∧
        ∃ file, file ∈ (NativeConfiguration.ofRegistry outcome.hints).files := by
  obtain ⟨generated, context, generates, sources, names⟩ := exists_bareGenerated
  have listed : (⟨"/k"⟩ : Path).listed = ⟨"/k"⟩ := by decide
  obtain ⟨outcome, after, hints, trace, nothing⟩ :=
    exists_trace (bareCoordinates directory) rfl generates
      (bareReady place apart leads there sources) listed idleHost_isQuiet
  rw [← hints] at names
  obtain ⟨file, member, -⟩ := List.mem_map.1 (names ▸ List.mem_cons_self)
  exact ⟨outcome, after, trace, nothing, file, member⟩

theorem bare_run_delivers_hints : ∃ outcome after,
    (bareConfiguration ⟨"d"⟩).resolve ⟨"/"⟩ = .ok (bareSettings ⟨"/d"⟩) ∧
    (start (bareSettings ⟨"/d"⟩) idleHost).run bareGraph ⟨bareTree, []⟩ =
      (.ok outcome, ⟨bareSettings ⟨"/d"⟩, idleHost, .done⟩, after) ∧
    ∃ file ∈ (NativeConfiguration.ofRegistry outcome.hints).files,
      after.files.read? ((bareSettings ⟨"/d"⟩).artifactBelow ⟨"/d"⟩ file.name) =
        some file.contents.toUTF8 := by
  have place : (⟨"/d"⟩ : Path).place = ["d"] := by decide
  obtain ⟨outcome, after, trace, nothing, file, member⟩ :=
    exists_bareTrace place (by decide) (by decide +kernel) (by decide +kernel)
  have resolved : (bareConfiguration ⟨"d"⟩).resolve ⟨"/"⟩ = .ok (bareSettings ⟨"/d"⟩) := by
    decide +kernel
  have ran : (start (bareSettings ⟨"/d"⟩) idleHost).run bareGraph ⟨bareTree, []⟩ =
      (.ok outcome, ⟨bareSettings ⟨"/d"⟩, idleHost, .done⟩, after) :=
    run_eq_ok_iff.2 ⟨rfl, ⟨trace⟩⟩
  have listable : (⟨"/r"⟩ : Path).IsListable := by decide
  obtain ⟨sameTrace, -, delivers⟩ := finished_run_delivers_artifacts resolved ran listable
  rw [Trace.unique sameTrace trace] at delivers
  obtain ⟨contents, -, rendered, arrives⟩ :=
    delivers file.name (.inr (List.mem_map.2 ⟨file, member, rfl⟩))
  have resourcesApart := FileTree.not_isSpoiled_of_apart trace.prepared
    (by decide : ¬ (⟨"/d"⟩ : Path).place <+: (⟨"/r"⟩ : Path).place) (by decide)
  have classesApart := FileTree.not_isSpoiled_of_apart trace.overlaid
    (by decide : ¬ (⟨"/d"⟩ : Path).place <+: (⟨"/k"⟩ : Path).place) (by decide)
  have delivered := arrives (resourcesApart _) (classesApart _)
  rw [nothing, Option.getD_none, rendered file member rfl] at delivered
  exact ⟨outcome, after, resolved, ran, file, member, delivered⟩

/-- A directory for resources that is the one for the class path: the hints arrive
empty. -/
theorem bare_run_empties_hints : ∃ outcome after,
    (bareConfiguration ⟨"r"⟩).resolve ⟨"/"⟩ = .ok (bareSettings ⟨"/r"⟩) ∧
    (start (bareSettings ⟨"/r"⟩) idleHost).run bareGraph ⟨bareTree, []⟩ =
      (.ok outcome, ⟨bareSettings ⟨"/r"⟩, idleHost, .done⟩, after) ∧
    ∃ trace : Trace (bareSettings ⟨"/r"⟩) idleHost bareGraph ⟨bareTree, []⟩ outcome after,
      ∃ file ∈ (NativeConfiguration.ofRegistry outcome.hints).files,
        (bareSettings ⟨"/r"⟩).artifactBelow ⟨"/r"⟩ file.name ∈ outcome.hintFiles ∧
        trace.overlaid.offered? ⟨"/k"⟩ ((bareSettings ⟨"/r"⟩).wayTo file.name) = none ∧
        after.files.read? ((bareSettings ⟨"/r"⟩).artifactBelow ⟨"/r"⟩ file.name) =
          some .empty ∧
        file.contents.toUTF8 ≠ .empty := by
  have place : (⟨"/r"⟩ : Path).place = ["r"] := by decide
  obtain ⟨outcome, after, trace, nothing, file, member⟩ :=
    exists_bareTrace place (by decide) (by decide +kernel) (by decide +kernel)
  have resolved : (bareConfiguration ⟨"r"⟩).resolve ⟨"/"⟩ = .ok (bareSettings ⟨"/r"⟩) := by
    decide +kernel
  have ran : (start (bareSettings ⟨"/r"⟩) idleHost).run bareGraph ⟨bareTree, []⟩ =
      (.ok outcome, ⟨bareSettings ⟨"/r"⟩, idleHost, .done⟩, after) :=
    run_eq_ok_iff.2 ⟨rfl, ⟨trace⟩⟩
  have listable : (⟨"/r"⟩ : Path).IsListable := by decide
  obtain ⟨hintFiles, reads⟩ := trace.read?_hints
  have isArtifact := NativeConfiguration.name_mem_artifactNames member
  have offered := trace.offered?_prepared (bareCoordinates ⟨"/r"⟩) isArtifact listable
    (reads file member)
  have emptied := trace.read?_emptied (bareCoordinates ⟨"/r"⟩) isArtifact rfl offered (nothing _)
  have isHint : (bareSettings ⟨"/r"⟩).artifactBelow ⟨"/r"⟩ file.name ∈ outcome.hintFiles := by
    rw [hintFiles]
    exact List.mem_map.2 ⟨file, member, rfl⟩
  exact ⟨outcome, after, resolved, ran, trace, file, member, isHint, nothing _, emptied,
    NativeConfiguration.toUTF8_contents_ne_empty member⟩

end Pipeline

end AheadOfTime
