import AheadOfTime.Proofs.Pipeline.Layout

/-!
# Running again

A run that has gone through in the layout of Maven goes through again and changes nothing, if
the host does the same again for the same sources.  What the first run has written stands where
the second one writes it, the directory for sources has the same files in it, and what is
collected is laid over what has been collected.
-/

namespace AheadOfTime

/-- Files below the directory for classes, with their paths. -/
def CompileRequest.outputs (request : CompileRequest) (files : List (Place × ByteArray)) :
    List (Path × ByteArray) :=
  files.map fun file => (request.classes.join (.ofNames file.1), file.2)

/-- Whether a host writes only files below the directory for classes, and what it reports and
writes depends only on what it is asked for and on the contents of the sources.  A file that
cannot be written is left out. -/
def Host.IsDetermined (host : Host) : Prop :=
  ∀ request contents, ∃ report, ∃ files : List (Place × ByteArray),
    (∀ file ∈ files, file.1 ≠ [] ∧ ∀ name ∈ file.1, Path.IsFileName name) ∧
    ∀ tree : FileTree, request.sources.map tree.read? = contents →
      host.invoke request tree = (report, tree.writeEach (request.outputs files))

namespace Host.IsDetermined

variable {host : Host} (determined : host.IsDetermined)

include determined

/-- What a host has compiled it compiles again from the same contents, and it writes the same
files again. -/
theorem of_compile {sources : List Path} (nonempty : sources ≠ []) {classes : Path}
    {before after : Workspace} {diagnostics : List Diagnostic}
    (compiles : host.compile sources classes before = (.ok diagnostics, after)) :
    ∃ made files, before.files.makeDirectories classes = (made, true) ∧
      (∀ file ∈ files, classes.IsBelow file.1) ∧ after.files = made.writeEach files ∧
      ∀ later : Workspace, later.files.isDirectory classes = true →
        sources.map later.files.read? = sources.map made.read? →
        ∃ final, host.compile sources classes later = (.ok diagnostics, final) ∧
          final.files = later.files.writeEach files := by
  cases makes : before.files.makeDirectories classes with
  | mk made there =>
      cases there with
      | false =>
          rw [host.compile_of_no_directory nonempty makes] at compiles
          cases compiles
      | true =>
          obtain ⟨report, files, named, invokes⟩ :=
            determined ⟨sources, classes⟩ (sources.map made.read?)
          rw [host.compile_of_directory nonempty makes, host.ask_eq, invokes made rfl] at compiles
          have below : ∀ file ∈ CompileRequest.outputs ⟨sources, classes⟩ files,
              classes.IsBelow file.1 :=
            List.forall_mem_map.2 fun file member =>
              Path.isBelow_join_ofNames classes (named file member).1 (named file member).2
          obtain ⟨isClean, rfl⟩ := Prod.mk.inj compiles
          refine ⟨made, _, rfl, below, rfl, fun later there same => ?_⟩
          refine ⟨⟨later.files.writeEach (CompileRequest.outputs ⟨sources, classes⟩ files),
            later.requests ++ [⟨sources, classes⟩]⟩, ?_, rfl⟩
          rw [host.compile_of_directory nonempty (FileTree.makeDirectories_of_isDirectory there),
            host.ask_eq, invokes later.files same, isClean]

end Host.IsDetermined

namespace Pipeline.Trace

variable {settings : Settings} {target : Path} (layout : settings.IsMaven target) {host : Host}
  {graph : Graph} {before after : Workspace} {outcome : RunOutcome}
  (trace : Trace settings host graph before outcome after)

include layout trace

/-- The directories for sources and for what the build makes are there when sources have been
written. -/
theorem isDirectory_sourced :
    trace.sourced.isDirectory target = true ∧
      trace.sourced.isDirectory settings.sources = true := by
  have first : outcome.generated.initializer.source ∈ outcome.generated.units :=
    List.mem_cons_self
  have there := FileTree.isFile_of_writeTexts trace.writesSources _
    (List.mem_map.2 ⟨_, first, rfl⟩)
  have below := TypeName.isBelow_source settings.sources outcome.generated.initializer.source.name
  exact ⟨FileTree.isDirectory_of_isFile layout.isBase (layout.isBelow_target .sources below) there,
    FileTree.isDirectory_of_isFile (layout.isBase_output .sources) below there⟩

theorem isDirectory_resources : trace.prepared.isDirectory settings.resources = true := by
  have there := trace.exists_read?_arguments
  have below := layout.isBelow_artifact (by decide : StartupArguments.fileName ∈ artifactNames)
  exact FileTree.isDirectory_of_isFile (layout.isBase_output .resources) below
    (Option.isSome_iff_exists.2 there)

/-- Sources that have been written are written again where they still are. -/
theorem writeSources_again {later : FileTree} (follows : FileTree.Follows trace.sourced later)
    (agrees : FileTree.AgreesBelow settings.sources.place trace.sourced later) :
    ∃ sourced, later.writeSources outcome.generated.units settings.sources =
        (.ok trace.sourcePaths, sourced) ∧
      FileTree.Follows later sourced ∧ FileTree.AgreesBelow [] sourced later := by
  have below : ∀ file ∈ outcome.generated.units.map fun unit =>
      (settings.sources.join unit.name.sourcePath, unit.body),
      settings.sources.IsBelow file.1 :=
    List.forall_mem_map.2 fun unit _ => TypeName.isBelow_source settings.sources unit.name
  refine FileTree.writeTexts_again layout.isBase
    (fun file member => layout.isBelow_target .sources (below file member))
    trace.writesSources follows fun file member => ?_
  obtain ⟨names, place⟩ := (below file member).exists_place
  rw [place]
  exact (agrees.contents? names).symm

/-- Hints that have been written are written again where the artifacts still are. -/
theorem writeHints_again {later : FileTree} (follows : FileTree.Follows trace.prepared later)
    (agrees : FileTree.AgreesBelow settings.resources.place trace.prepared later) :
    ∃ hinted, later.writeHints outcome.hints settings.nativeImageDirectory =
        (.ok outcome.hintFiles, hinted) ∧
      FileTree.Follows later hinted ∧ FileTree.AgreesBelow [] hinted later := by
  have isHint : ∀ file ∈ (NativeConfiguration.ofRegistry outcome.hints).files.map fun file =>
      (settings.nativeImageDirectory.join ⟨file.name⟩, file.contents),
      settings.resources.IsBelow file.1 ∧ file.1 ∈ hintPaths settings outcome.hints :=
    List.forall_mem_map.2 fun file member =>
      ⟨layout.isBelow_artifact (NativeConfiguration.name_mem_artifactNames member),
        List.mem_map.2 ⟨file, member, rfl⟩⟩
  refine FileTree.writeTexts_again layout.isBase
    (fun file member => layout.isBelow_target .resources (isHint file member).1)
    trace.writesHints (trace.writes_prepared.follows.trans follows) fun file member => ?_
  obtain ⟨names, place⟩ := (isHint file member).1.exists_place
  have unwritten : ¬ ∃ path ∈ [StartupArguments.path settings], file.1.place = path.place := by
    rintro ⟨path, isArguments, same⟩
    rw [List.mem_singleton.1 isArguments] at same
    exact place_arguments_ne_place_hint (isHint file member).2 same.symm
  rw [← trace.writes_prepared.contents? unwritten, place]
  exact (agrees.contents? names).symm

/-- Startup arguments are kept, or stale again, where the artifacts still are. -/
theorem writeArguments_again {later : FileTree}
    (follows : FileTree.Follows trace.prepared later)
    (agrees : FileTree.AgreesBelow settings.resources.place trace.prepared later) :
    StartupArguments.write settings later =
      (.ok (if outcome.startupArguments = .stale then .stale else .kept), later) := by
  refine StartupArguments.write_again trace.writesArguments ?_
  obtain ⟨contents, reads⟩ := trace.exists_read?_arguments
  obtain ⟨leads, holds⟩ := FileTree.of_read? reads
  have below : settings.resources.IsBelow (StartupArguments.path settings) :=
    layout.isBelow_artifact (by decide)
  obtain ⟨names, place⟩ := below.exists_place
  rw [FileTree.read?_eq_contents? (FileTree.locate?_of_edits follows leads), reads, ← holds,
    place]
  exact (agrees.contents? names).symm

/-- Hints and startup arguments leave the other directories alone. -/
theorem agreesBelow_prepared (isTarget : trace.compiled.files.isDirectory target = true)
    (other : Settings.Output) (different : other ≠ .resources) :
    FileTree.AgreesBelow (settings.output other).place trace.compiled.files trace.prepared := by
  have hints : ∀ path ∈ hintPaths settings outcome.hints, settings.resources.IsBelow path :=
    List.forall_mem_map.2 fun file member =>
      layout.isBelow_artifact (NativeConfiguration.name_mem_artifactNames member)
  have arguments : ∀ path ∈ [StartupArguments.path settings], settings.resources.IsBelow path :=
    List.forall_mem_singleton.2 (layout.isBelow_artifact (by decide))
  exact (layout.agreesBelow_of_writes isTarget trace.writes_hinted .resources other different
    hints).trans
    (layout.agreesBelow_of_writes (FileTree.isDirectory_of_edits trace.writes_hinted isTarget)
      trace.writes_prepared .resources other different arguments)

/-- Where the directory for sources has stayed as they were written, they are found again. -/
theorem findsSources_again {later : FileTree}
    (follows : FileTree.Follows trace.sourced later)
    (agrees : FileTree.AgreesBelow settings.sources.place trace.sourced later) :
    outcome.sources = later.sourcesUnder settings.sources := by
  obtain ⟨-, isSources⟩ := trace.isDirectory_sourced layout
  have listable : settings.sources.IsListable := (layout.isBase_output .sources).listable
  rw [trace.findsSources]
  exact FileTree.sourcesUnder_of_agreesBelow ⟨listable, isSources⟩
    ⟨listable, FileTree.isDirectory_of_edits follows isSources⟩ agrees

/-- The sources hold the same as long as their directory stays as it is. -/
theorem map_read?_sources {first later : FileTree}
    (toFirst : FileTree.Follows trace.sourced first)
    (same : FileTree.AgreesBelow settings.sources.place trace.sourced first)
    (follows : FileTree.Follows first later)
    (agrees : FileTree.AgreesBelow settings.sources.place first later) :
    outcome.sources.map later.read? = outcome.sources.map first.read? := by
  obtain ⟨-, isSources⟩ := trace.isDirectory_sourced layout
  have listable : settings.sources.IsListable := (layout.isBase_output .sources).listable
  have isFirst := FileTree.isDirectory_of_edits toFirst isSources
  rw [trace.findsSources_again layout toFirst same]
  exact (FileTree.map_read?_sourcesUnder ⟨listable, isFirst⟩
    ⟨listable, FileTree.isDirectory_of_edits follows isFirst⟩ agrees).symm

/-- Collecting leaves the directories alone that it collects from, and the sources. -/
theorem agreesBelow_after (isTarget : trace.prepared.isDirectory target = true)
    (other : Settings.Output) (different : other ≠ .classpath) :
    FileTree.AgreesBelow (settings.output other).place trace.prepared after.files := by
  have apart : settings.classpathDirectory.Apart (settings.output other) :=
    layout.apart .classpath other different.symm
  have inside : ∀ path, settings.classpathDirectory.IsBelow path → target.IsBelow path :=
    fun path => layout.isBelow_target .classpath
  exact (FileTree.agreesBelow_of_copyFiles inside isTarget apart trace.copiesResources).trans
    (FileTree.agreesBelow_of_copyFiles inside
      (FileTree.isDirectory_of_edits trace.writes_overlaid isTarget) apart trace.copiesClasses)

variable (determined : host.IsDetermined)

include determined

/-- The compilation leaves sources alone, and is done again where sources and classes still
are. -/
theorem compiles_again :
    FileTree.Follows trace.sourced trace.compiled.files ∧
      FileTree.AgreesBelow settings.sources.place trace.sourced trace.compiled.files ∧
      trace.compiled.files.isDirectory settings.classes = true ∧
      ∀ later : Workspace, FileTree.Follows trace.compiled.files later.files →
        FileTree.AgreesBelow settings.sources.place trace.sourced later.files →
        FileTree.AgreesBelow settings.classes.place trace.compiled.files later.files →
        ∃ compiled, host.compile outcome.sources settings.classes later =
            (.ok outcome.diagnostics, compiled) ∧
          FileTree.Follows later.files compiled.files ∧
          FileTree.AgreesBelow [] compiled.files later.files := by
  obtain ⟨isTarget, -⟩ := trace.isDirectory_sourced layout
  have listable : settings.sources.IsListable := (layout.isBase_output .sources).listable
  have nonempty : outcome.sources ≠ [] := by
    rw [trace.findsSources]
    exact (FileTree.findsSources_of_writeSources listable trace.writesSources).nonempty
  obtain ⟨made, files, makes, below, isCompiled, again⟩ :=
    determined.of_compile nonempty trace.compiles
  have makesClasses := (FileTree.makes_makeDirectories trace.sourced settings.classes).writes
  rw [makes] at makesClasses
  have sourcesMade : FileTree.AgreesBelow settings.sources.place trace.sourced made :=
    layout.agreesBelow_of_makeDirectories isTarget .classes .sources (by decide) makes
  have isTargetMade := FileTree.isDirectory_of_edits makesClasses isTarget
  have isClassesMade : made.isDirectory settings.classes = true :=
    layout.isDirectory_output_of_makeDirectories isTarget .classes makes
  have writes := FileTree.writes_writeEach made files
  have sourcesCompiled := layout.agreesBelow_of_writes isTargetMade writes .classes .sources
    (by decide) (List.forall_mem_map.2 below)
  rw [isCompiled]
  refine ⟨makesClasses.follows.trans writes.follows, sourcesMade.trans sourcesCompiled,
    FileTree.isDirectory_of_edits writes isClassesMade, ?_⟩
  intro later follows sources classes
  have same : outcome.sources.map later.files.read? = outcome.sources.map made.read? :=
    trace.map_read?_sources layout makesClasses.follows sourcesMade
      (writes.follows.trans follows) (sourcesMade.symm.trans sources)
  obtain ⟨final, compiles, isFinal⟩ := again later
    (FileTree.isDirectory_of_edits (writes.follows.trans follows) isClassesMade) same
  refine ⟨final, compiles, ?_, ?_⟩
  · rw [isFinal]
    exact (FileTree.writes_writeEach later.files files).follows
  · rw [isFinal]
    refine FileTree.writeEach_again layout.isBase isTargetMade
      (fun file member => layout.isBelow_target .classes (below file member)) follows
      fun file member => ?_
    obtain ⟨names, place⟩ := (below file member).exists_place
    rw [place]
    exact (classes.contents? names).symm

/-- A run that has gone through goes through again, does the same, and changes nothing. -/
theorem again (requests : List CompileRequest) :
    ∃ final : Workspace,
      Nonempty (Trace settings host graph ⟨after.files, requests⟩
        { outcome with
          startupArguments := if outcome.startupArguments = .stale then .stale else .kept }
        final) ∧
      FileTree.AgreesBelow [] final.files after.files := by
  obtain ⟨isTarget, -⟩ := trace.isDirectory_sourced layout
  obtain ⟨toCompiled, sourcesCompiled, isClasses, compiles⟩ :=
    trace.compiles_again layout determined
  have isTargetCompiled := FileTree.isDirectory_of_edits toCompiled isTarget
  have toPrepared := trace.writes_hinted.follows.trans trace.writes_prepared.follows
  have isTargetPrepared := FileTree.isDirectory_of_edits toPrepared isTargetCompiled
  have toAfter := trace.writes_overlaid.follows.trans trace.writes_after.follows
  have collects := trace.agreesBelow_after layout isTargetPrepared
  have prepares := trace.agreesBelow_prepared layout isTargetCompiled
  have sourcesKept := (sourcesCompiled.trans (prepares .sources (by decide))).trans
    (collects .sources (by decide))
  have classesKept := (prepares .classes (by decide)).trans (collects .classes (by decide))
  have resourcesKept := collects .resources (by decide)
  -- Each stage starts with what the first run has left behind, and leaves it behind.
  obtain ⟨sourced, writesSources, toSourced, sameSourced⟩ := trace.writeSources_again layout
    (toCompiled.trans (toPrepared.trans toAfter)) sourcesKept
  have sourcesSame := sourcesKept.trans (sameSourced.symm.below settings.sources.place)
  have findsSources := trace.findsSources_again layout
    ((toCompiled.trans (toPrepared.trans toAfter)).trans toSourced) sourcesSame
  obtain ⟨compiled, isCompiled, toCompiledAgain, sameCompiled⟩ := compiles ⟨sourced, requests⟩
    ((toPrepared.trans toAfter).trans toSourced) sourcesSame
    (classesKept.trans (sameSourced.symm.below settings.classes.place))
  have compiledSame := sameCompiled.trans sameSourced
  have toAll := (toAfter.trans toSourced).trans toCompiledAgain
  obtain ⟨hinted, writesHints, toHinted, sameHinted⟩ := trace.writeHints_again layout toAll
    (resourcesKept.trans (compiledSame.symm.below settings.resources.place))
  have hintedSame := sameHinted.trans compiledSame
  have writesArguments := trace.writeArguments_again layout (toAll.trans toHinted)
    (resourcesKept.trans (hintedSame.symm.below settings.resources.place))
  obtain ⟨overlaid, final, copiesResources, copiesClasses, same⟩ := FileTree.collect_again
    layout.isBase (fun path => layout.isBelow_target .classpath)
    isTargetPrepared (layout.apart .classpath .resources (by decide)) (layout.apart .classpath .classes (by decide))
    ⟨(layout.isBase_output .resources).listable, trace.isDirectory_resources layout⟩
    ⟨(layout.isBase_output .classes).listable, FileTree.isDirectory_of_edits toPrepared isClasses⟩
    trace.copiesResources trace.copiesClasses
    ((toSourced.trans toCompiledAgain).trans toHinted) hintedSame
  exact ⟨⟨final, compiled.requests⟩,
    ⟨⟨trace.context, trace.sourcePaths, sourced, compiled, hinted, hinted, trace.copied, overlaid,
      trace.collected, trace.matched, trace.generates, trace.hints, writesSources, findsSources,
      isCompiled, writesHints, writesArguments, copiesResources, copiesClasses, trace.collects,
      rfl⟩⟩, same.trans hintedSame⟩

end Pipeline.Trace

/-! ## Runs -/

namespace Pipeline

/-- In the layout of Maven, running again changes nothing: after a run that has gone through,
a second one for the same settings and graph goes through as well, finds and returns the same,
and leaves all files as they are.  Startup arguments that were stale are stale again, and all
others are kept. -/
theorem second_run_repeats_first {application : TypeName} {groupId artifactId : String}
    {workingDirectory : Path} {settings : Settings}
    (resolved : Settings.maven application groupId artifactId workingDirectory = .ok settings)
    (absolute : workingDirectory.isAbsolute = true) (overwrite : Bool) {host : Host}
    (determined : host.IsDetermined) {graph : Graph} {before after : Workspace}
    {outcome : RunOutcome} {pipeline : Pipeline}
    (ran : (start { settings with overwrite } host).run graph before =
      (.ok outcome, pipeline, after)) (requests : List CompileRequest) :
    ∃ final : Workspace,
      (start { settings with overwrite } host).run graph ⟨after.files, requests⟩ =
        (.ok { outcome with
          startupArguments := if outcome.startupArguments = .stale then .stale else .kept },
          ⟨{ settings with overwrite }, host, .done⟩, final) ∧
      ∀ place, final.files.node? place = after.files.node? place := by
  have layout := Settings.isMaven_of_maven resolved absolute overwrite
  obtain ⟨-, ⟨trace⟩⟩ := run_eq_ok_iff.1 ran
  obtain ⟨final, repeats, same⟩ := trace.again layout determined requests
  exact ⟨final, run_eq_ok_iff.2 ⟨rfl, repeats⟩, same⟩

def classHost : Host :=
  ⟨"javac", fun request tree =>
    (.ok ⟨true, [], []⟩, tree.writeEach (request.outputs [(["App.class"], "class".toUTF8)]))⟩

def mavenSettings : Settings where
  application := ⟨[], { text := "App" }⟩
  graph := none
  sources := ⟨"/target/spring-aot/main/sources"⟩
  resources := ⟨"/target/spring-aot/main/resources"⟩
  classes := ⟨"/target/spring-aot/main/classes"⟩
  classpathDirectory := ⟨"/target/classes"⟩
  groupId := "g"
  artifactId := "a"
  compiler := "javac"
  compilerClasspath := []
  compilerOptions := []
  overwrite := false

/-- The directories of a Maven build that a run writes into, without files. -/
def mavenTree : FileTree where
  entries := [["target"], ["target", "spring-aot"], ["target", "spring-aot", "main"],
    ["target", "spring-aot", "main", "sources"],
    ["target", "spring-aot", "main", "classes"],
    ["target", "spring-aot", "main", "resources"],
    ["target", "spring-aot", "main", "resources", "META-INF"],
    ["target", "spring-aot", "main", "resources", "META-INF", "native-image"],
    ["target", "spring-aot", "main", "resources", "META-INF", "native-image", "g"],
    ["target", "spring-aot", "main", "resources", "META-INF", "native-image", "g", "a"],
    ["target", "classes"],
    ["target", "classes", "META-INF"],
    ["target", "classes", "META-INF", "native-image"],
    ["target", "classes", "META-INF", "native-image", "g"],
    ["target", "classes", "META-INF", "native-image", "g", "a"]].map
      fun place => (place, .directory)
  below := by decide
  distinct := by decide +kernel
  named := by decide +kernel
  rooted := by decide +kernel

theorem classHost_isDetermined : classHost.IsDetermined := by
  have isFileName : Path.IsFileName "App.class" := by decide
  exact fun request contents => ⟨.ok ⟨true, [], []⟩, [(["App.class"], "class".toUTF8)],
    List.forall_mem_singleton.2 ⟨List.cons_ne_nil _ _, List.forall_mem_singleton.2 isFileName⟩,
    fun _ _ => rfl⟩

theorem resolve_mavenSettings :
    Settings.maven ⟨[], { text := "App" }⟩ "g" "a" ⟨"/"⟩ = .ok mavenSettings := by
  decide +kernel

theorem isDirectory_mavenTree (output : Settings.Output) :
    mavenTree.isDirectory (mavenSettings.output output) = true := by
  cases output with
  | sources =>
      decide +kernel
  | resources =>
      decide +kernel
  | classes =>
      decide +kernel
  | classpath =>
      decide +kernel

/-- The directories are there for a run that writes one source file. -/
theorem mavenReady (layout : mavenSettings.IsMaven ⟨"/target"⟩) {generated : Generated}
    (sources : generated.units.map (fun unit => unit.name.sourcePath) =
      [⟨"App__ApplicationContextInitializer.java"⟩]) :
    Ready mavenSettings generated mavenTree := by
  have resourcesThere : mavenTree.isDirectory mavenSettings.nativeImageDirectory = true := by
    decide +kernel
  have deliveryThere : mavenTree.isDirectory
      (Settings.nativeImageDirectoryOf ⟨"/target/classes"⟩ "g" "a") = true := by
    decide +kernel
  have listed : mavenSettings.resources.listed = mavenSettings.resources := by decide +kernel
  exact ready_of_directories layout.coordinates
    (fun place _ => contents?_of_directories (by decide) place) sources
    (by decide) (by decide) (by decide +kernel)
    ⟨layout.isBase_output .sources, isDirectory_mavenTree .sources⟩
    ⟨layout.isBase_artifacts .resources, resourcesThere⟩
    ⟨layout.isBase_artifacts .classpath, deliveryThere⟩ (isDirectory_mavenTree .classes) listed
    (layout.apart .classes .sources (by decide)) (layout.apart .classes .resources (by decide))
    (layout.apart .classes .classpath (by decide)) (layout.apart .resources .sources (by decide))

/-- The host compiles into a directory with room for its class. -/
theorem exists_classCompile {classes : Path} {tree : FileTree}
    (there : tree.isDirectory classes = true)
    (room : tree.HasRoom (classes.join (.ofNames ["App.class"]))) (sources : List Path)
    (requests : List CompileRequest) :
    ∃ compiled, classHost.compile sources classes ⟨tree, requests⟩ = (.ok [], compiled) ∧
      FileTree.OnlyWrites [classes.join (.ofNames ["App.class"])] tree compiled.files := by
  by_cases empty : sources = []
  · rw [empty]
    exact ⟨⟨tree, requests⟩, classHost.compile_nil, .done⟩
  · have present : tree.makeDirectories classes = (tree, true) :=
      FileTree.makeDirectories_of_isDirectory there
    have writes : tree.writeEach
        (CompileRequest.outputs ⟨sources, classes⟩ [(["App.class"], "class".toUTF8)]) =
        tree.put (classes.join (.ofNames ["App.class"])).place (.file "class".toUTF8) := by
      rw [CompileRequest.outputs, List.map_singleton, FileTree.writeEach,
        FileTree.writeFile_of_hasRoom room]
      rfl
    refine ⟨⟨tree.put (classes.join (.ofNames ["App.class"])).place (.file "class".toUTF8),
      requests ++ [⟨sources, classes⟩]⟩, ?_, FileTree.onlyWrites_put room _⟩
    rw [classHost.compile_of_directory empty present, classHost.ask_eq]
    simp only [classHost, writes]
    rfl

theorem exists_mavenRun : ∃ outcome after,
    (start mavenSettings classHost).run bareGraph ⟨mavenTree, []⟩ =
      (.ok outcome, ⟨mavenSettings, classHost, .done⟩, after) := by
  have layout : mavenSettings.IsMaven ⟨"/target"⟩ :=
    Settings.isMaven_of_maven resolve_mavenSettings rfl false
  obtain ⟨generated, context, generates, sources, -⟩ := exists_bareGenerated
  have ready := mavenReady layout sources
  have isFileName : Path.IsFileName "App.class" := by decide
  have each : ∀ names ∈ [["App.class"]], names ≠ [] ∧ ∀ name ∈ names, Path.IsFileName name :=
    List.forall_mem_singleton.2
      ⟨List.cons_ne_nil _ _, List.forall_mem_singleton.2 isFileName⟩
  have room : ∀ output : Settings.Output,
      mavenTree.HasRoom ((mavenSettings.output output).join (.ofNames ["App.class"])) := by
    intro output
    rw [Path.ofNames_singleton isFileName]
    exact hasRoom_of_new ⟨layout.isBase_output output, isDirectory_mavenTree output⟩ isFileName
      (by decide) (by decide +kernel)
  have listed : mavenSettings.classes.listed = mavenSettings.classes := by decide +kernel
  have apart : ∀ path ∈ classPaths mavenSettings [["App.class"]],
      ¬ mavenSettings.resources.place <+: path.place := fun path member =>
    (layout.apart .resources .classes (by decide)).outside
      (isBelow_of_mem_classPaths each path member)
  obtain ⟨outcome, after, -, trace, -⟩ :=
    exists_trace_of_compile each layout.coordinates rfl generates ready
      (List.forall_mem_singleton.2 ⟨room .classes, room .classpath⟩) listed apart
      fun sourced toSources =>
        exists_classCompile (FileTree.isDirectory_of_edits toSources ready.classes)
          ((room .classes).of_onlyWrites toSources) _ _
  exact ⟨outcome, after, run_eq_ok_iff.2 ⟨rfl, ⟨trace⟩⟩⟩

theorem maven_run_repeats : ∃ outcome after final,
    Settings.maven ⟨[], { text := "App" }⟩ "g" "a" ⟨"/"⟩ = .ok mavenSettings ∧
    (start mavenSettings classHost).run bareGraph ⟨mavenTree, []⟩ =
      (.ok outcome, ⟨mavenSettings, classHost, .done⟩, after) ∧
    (start mavenSettings classHost).run bareGraph ⟨after.files, []⟩ =
      (.ok { outcome with
        startupArguments := if outcome.startupArguments = .stale then .stale else .kept },
        ⟨mavenSettings, classHost, .done⟩, final) ∧
    ∀ place, final.files.node? place = after.files.node? place := by
  obtain ⟨outcome, after, ran⟩ := exists_mavenRun
  obtain ⟨final, repeats, same⟩ := second_run_repeats_first resolve_mavenSettings rfl false
    classHost_isDetermined ran []
  exact ⟨outcome, after, final, resolve_mavenSettings, ran, repeats, same⟩

end Pipeline

end AheadOfTime
