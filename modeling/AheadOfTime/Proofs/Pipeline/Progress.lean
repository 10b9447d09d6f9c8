import AheadOfTime.Proofs.FileTree.Room
import AheadOfTime.Proofs.Pipeline.Frame
import AheadOfTime.Proofs.Pipeline.Trace

/-!
# Runs into prepared directories

A run goes through if its application is the one of the graph, the graph can be generated,
the host has nothing to say, and there are directories for all files that are written and
nothing yet to collect.
-/

namespace AheadOfTime

/-- Whether a host compiles whatever it is given, without a message, and leaves all files
as they are. -/
def Host.IsQuiet (host : Host) : Prop :=
  ∀ request tree, host.invoke request tree = (.ok ⟨true, [], []⟩, tree)

namespace Pipeline

def writtenPaths (settings : Settings) (generated : Generated) : List Path :=
  sourcePaths settings generated ++
    artifactNames.map (settings.artifactBelow settings.resources) ++
    artifactNames.map (settings.artifactBelow settings.classpathDirectory)

/-- Whether a tree has directories for all files that a run writes, and no files yet in those
for resources and classes. No file is written into the directory for classes, and no source
file into the one for resources. -/
structure Ready (settings : Settings) (generated : Generated) (tree : FileTree) : Prop where
  bare : ∀ place, settings.resources.place <+: place ∨ settings.classes.place <+: place →
    tree.contents? place = none
  room : ∀ path ∈ writtenPaths settings generated, tree.HasRoom path
  classes : tree.isDirectory settings.classes = true
  listed : settings.resources.listed = settings.resources
  classesApart : ∀ path ∈ writtenPaths settings generated,
    ¬ settings.classes.place <+: path.place
  sourcesApart : ∀ path ∈ sourcePaths settings generated,
    ¬ settings.resources.place <+: path.place

end Pipeline

/-- A host that is quiet about some sources goes through with their compilation into a
directory that is there. -/
theorem Host.exists_compile {host : Host} {tree : FileTree} {sources : List Path}
    {classes : Path}
    (quiet : host.invoke ⟨sources, classes⟩ tree = (.ok ⟨true, [], []⟩, tree))
    (there : tree.isDirectory classes = true) (requests : List CompileRequest) :
    ∃ later, host.compile sources classes ⟨tree, requests⟩ = (.ok [], ⟨tree, later⟩) := by
  by_cases empty : sources = []
  · rw [empty]
    exact ⟨requests, host.compile_nil⟩
  · have present : tree.makeDirectories classes = (tree, true) :=
      FileTree.makeDirectories_of_isDirectory there
    refine ⟨requests ++ [⟨sources, classes⟩], ?_⟩
    rw [host.compile_of_directory empty present, host.ask_eq, quiet]
    rfl

namespace FileTree

/-- A file is where one has been written, if there was none before. -/
theorem exists_path_of_contents? {before after : FileTree} {paths : List Path}
    (writes : OnlyWrites paths before after) {place : Place}
    (bare : before.contents? place = none) {contents : ByteArray}
    (holds : after.contents? place = some contents) :
    ∃ path ∈ paths, place = path.place := by
  by_contra unwritten
  have kept := writes.contents? unwritten
  rw [bare, holds] at kept
  cases kept

/-- Where no file was below a directory, all sources that are found have been written. -/
theorem exists_path_of_mem_sourcesUnder {before after : FileTree} {directory : Path}
    {paths : List Path} (writes : OnlyWrites paths before after)
    (bare : ∀ names, before.contents? (directory.place ++ names) = none) {source : Path}
    (member : source ∈ after.sourcesUnder directory) :
    ∃ names, source = directory.listed.join (.ofNames names) ∧
      ∃ path ∈ paths, directory.place ++ names = path.place := by
  have isFile := (List.mem_filter.1 member).1
  rw [filesUnder_eq] at isFile
  split at isFile
  · rw [Path.sort, List.mem_mergeSort, List.mem_map] at isFile
    obtain ⟨names, isBelow, same⟩ := isFile
    obtain ⟨-, contents, holds⟩ := mem_filesBelow_iff.1 isBelow
    exact ⟨names, same.symm, exists_path_of_contents? writes (bare names) holds⟩
  · cases isFile

/-- A file that stands at a place with room can be read there. -/
theorem isFile_of_contents? {tree : FileTree} {path : Path} (room : tree.HasRoom path)
    {contents : ByteArray} (holds : tree.contents? path.place = some contents) :
    tree.isFile path = true := by
  obtain ⟨directory, name, leads⟩ := room.leads
  have there : tree.node? path.place ≠ none := by
    rw [contents?_eq_some_iff.1 holds]
    exact nofun
  have located := leads.locate? (Edits.done : Edits (fun _ => False) (fun _ => False) tree tree)
    there
  rw [isFile, read?_eq_contents? located, holds]
  rfl

theorem exists_contents?_of_mem_listing {tree : FileTree} {directory : Path} {names : Place}
    (member : names ∈ tree.listing directory) :
    ∃ contents, tree.contents? (directory.place ++ names) = some contents := by
  obtain ⟨contents, offered⟩ := mem_listing_iff.1 member
  rw [offered?] at offered
  split at offered
  · exact ⟨contents, offered⟩
  · cases offered

end FileTree

/-! ## Runs -/

namespace Pipeline

variable {settings : Settings} {host : Host} {graph : Graph} {generated : Generated}
  {tree : FileTree}

theorem mem_writtenPaths_iff {path : Path} :
    path ∈ writtenPaths settings generated ↔
      path ∈ sourcePaths settings generated ∨
        ∃ name ∈ artifactNames, path = settings.artifactBelow settings.resources name ∨
          path = settings.artifactBelow settings.classpathDirectory name := by
  simp only [writtenPaths, List.mem_append, List.mem_map]
  constructor
  · rintro ((source | ⟨name, member, same⟩) | ⟨name, member, same⟩)
    · exact .inl source
    · exact .inr ⟨name, member, .inl same.symm⟩
    · exact .inr ⟨name, member, .inr same.symm⟩
  · rintro (source | ⟨name, member, same | same⟩)
    · exact .inl (.inl source)
    · exact .inl (.inr ⟨name, member, same.symm⟩)
    · exact .inr ⟨name, member, same.symm⟩

/-- There is still room for a file that a run writes, whatever has been written before. -/
theorem Ready.hasRoom (ready : Ready settings generated tree) {path : Path}
    (isWritten : path ∈ writtenPaths settings generated) {paths : List Path}
    {later : FileTree} (writes : FileTree.OnlyWrites paths tree later) :
    later.HasRoom path :=
  (ready.room path isWritten).of_onlyWrites writes

/-- A tree stays ready when files are written elsewhere than into the directories for resources
and classes. -/
theorem Ready.of_onlyWrites (ready : Ready settings generated tree) {paths : List Path}
    {later : FileTree} (writes : FileTree.OnlyWrites paths tree later)
    (elsewhere : ∀ path ∈ paths,
      ¬ settings.resources.place <+: path.place ∧ ¬ settings.classes.place <+: path.place) :
    Ready settings generated later := by
  refine ⟨?_, fun path isWritten => ready.hasRoom isWritten writes,
    FileTree.isDirectory_of_edits writes ready.classes, ready.listed, ready.classesApart,
    ready.sourcesApart⟩
  intro place below
  rw [writes.contents?, ready.bare place below]
  rintro ⟨path, member, same⟩
  rw [same] at below
  rcases below with resources | classes
  · exact (elsewhere path member).1 resources
  · exact (elsewhere path member).2 classes

theorem mem_writtenPaths_of_artifact {name : String} (isArtifact : name ∈ artifactNames) :
    settings.nativeImageDirectory.join ⟨name⟩ ∈ writtenPaths settings generated :=
  mem_writtenPaths_iff.2 (.inr ⟨name, isArtifact, .inl rfl⟩)

theorem exists_artifact_of_mem_hintPaths {hints : HintRegistry} {path : Path}
    (member : path ∈ hintPaths settings hints) :
    ∃ name ∈ artifactNames, path = settings.artifactBelow settings.resources name := by
  obtain ⟨file, isFile, same⟩ := List.mem_map.1 member
  exact ⟨file.name, NativeConfiguration.name_mem_artifactNames isFile, same.symm⟩

theorem Ready.exists_writeSources (ready : Ready settings generated tree) :
    ∃ paths sourced,
      tree.writeSources generated.units settings.sources = (.ok paths, sourced) ∧
        FileTree.OnlyWrites (sourcePaths settings generated) tree sourced := by
  have room : ∀ file ∈ generated.units.map fun unit =>
      (settings.sources.join unit.name.sourcePath, unit.body), tree.HasRoom file.1 := by
    intro file member
    obtain ⟨unit, isUnit, same⟩ := List.mem_map.1 member
    rw [← same]
    exact ready.room _ (mem_writtenPaths_iff.2 (.inl (List.mem_map.2 ⟨unit, isUnit, rfl⟩)))
  obtain ⟨paths, sourced, written, writes⟩ := FileTree.exists_writeTexts room
  rw [List.map_map] at writes
  exact ⟨paths, sourced, written, writes⟩

theorem Ready.exists_writeHints (ready : Ready settings generated tree) {written : List Path}
    {compiled : FileTree} (writes : FileTree.OnlyWrites written tree compiled)
    (hints : HintRegistry) :
    ∃ paths hinted,
      compiled.writeHints hints settings.nativeImageDirectory = (.ok paths, hinted) ∧
        FileTree.OnlyWrites (written ++ hintPaths settings hints) tree hinted := by
  have room : ∀ file ∈ (NativeConfiguration.ofRegistry hints).files.map fun file =>
      (settings.nativeImageDirectory.join ⟨file.name⟩, file.contents),
      compiled.HasRoom file.1 := by
    intro file member
    obtain ⟨hint, isHint, same⟩ := List.mem_map.1 member
    rw [← same]
    have isArtifact := NativeConfiguration.name_mem_artifactNames isHint
    exact ready.hasRoom (mem_writtenPaths_of_artifact isArtifact) writes
  obtain ⟨paths, hinted, writesHints, later⟩ := FileTree.exists_writeTexts room
  rw [List.map_map] at later
  exact ⟨paths, hinted, writesHints, writes.append later⟩

theorem Ready.exists_writeArguments (ready : Ready settings generated tree)
    (below : settings.resources.place <+: (StartupArguments.path settings).place)
    {written : List Path} {hinted : FileTree}
    (writes : FileTree.OnlyWrites written tree hinted)
    (apart : ∀ path ∈ written, (StartupArguments.path settings).place ≠ path.place) :
    ∃ prepared, StartupArguments.write settings hinted = (.ok .written, prepared) ∧
      FileTree.OnlyWrites (written ++ [StartupArguments.path settings]) tree prepared := by
  have free : hinted.contents? (StartupArguments.path settings).place = none := by
    rw [writes.contents?, ready.bare _ (.inl below)]
    rintro ⟨path, member, same⟩
    exact apart path member same
  have isArguments : StartupArguments.fileName ∈ artifactNames := by decide
  have isWritten : StartupArguments.path settings ∈ writtenPaths settings generated :=
    mem_writtenPaths_of_artifact isArguments
  obtain ⟨prepared, writesArguments, later⟩ :=
    StartupArguments.exists_write (ready.hasRoom isWritten writes) free
  exact ⟨prepared, writesArguments, writes.append later⟩

section Prepared

variable (coordinates : settings.HasCoordinates) (ready : Ready settings generated tree)
  {prepared : FileTree} {paths : List Path}
  (writes : FileTree.OnlyWrites paths tree prepared)
  (written : ∀ path ∈ paths, ¬ settings.resources.place <+: path.place ∨
    ∃ name ∈ artifactNames, path = settings.artifactBelow settings.resources name)

include coordinates ready writes written

/-- The directory for resources has the artifacts only that have been written. -/
theorem exists_artifact_of_mem_listing {names : Place}
    (member : names ∈ prepared.listing settings.resources) :
    ∃ name ∈ artifactNames, names = settings.wayTo name ∧
      prepared.isFile (settings.artifactBelow settings.resources name) = true := by
  obtain ⟨contents, holds⟩ := FileTree.exists_contents?_of_mem_listing member
  obtain ⟨path, isPath, same⟩ := FileTree.exists_path_of_contents? writes
    (ready.bare _ (.inl (List.prefix_append _ _))) holds
  rcases written path isPath with elsewhere | ⟨name, isArtifact, isBelow⟩
  · exact absurd ⟨names, same⟩ elsewhere
  · rw [isBelow, Settings.place_artifactBelow coordinates isArtifact] at same
    have isWay : names = settings.wayTo name := List.append_cancel_left same
    have room := ready.hasRoom (mem_writtenPaths_of_artifact isArtifact) writes
    rw [isWay, ← Settings.place_artifactBelow coordinates isArtifact] at holds
    exact ⟨name, isArtifact, isWay, FileTree.isFile_of_contents? room holds⟩

theorem exists_artifact_of_mem_collectionPlan {file : Path × Path}
    (member : file ∈ prepared.collectionPlan settings.resources settings.classpathDirectory) :
    ∃ name ∈ artifactNames,
      file.2 = settings.artifactBelow settings.classpathDirectory name ∧
      prepared.isFile file.1 = true := by
  rw [FileTree.collectionPlan_eq, ready.listed] at member
  obtain ⟨names, isListed, same⟩ := List.mem_map.1 member
  obtain ⟨name, isArtifact, isWay, there⟩ :=
    exists_artifact_of_mem_listing coordinates ready writes written isListed
  rw [isWay] at same
  rw [Settings.artifactBelow_eq coordinates isArtifact] at there
  rw [← same]
  exact ⟨name, isArtifact,
    (Settings.artifactBelow_eq coordinates isArtifact settings.classpathDirectory).symm,
    there⟩

/-- The resources that a run has written are copied where there is room for them. -/
theorem exists_copyResources :
    ∃ copied overlaid, prepared.copyFiles
        (prepared.collectionPlan settings.resources settings.classpathDirectory) =
          (.ok copied, overlaid) ∧
      FileTree.OnlyWrites
        (artifactNames.map (settings.artifactBelow settings.classpathDirectory))
        prepared overlaid := by
  have plan : ∀ file ∈ prepared.collectionPlan settings.resources settings.classpathDirectory,
      ∃ name ∈ artifactNames,
        file.2 = settings.artifactBelow settings.classpathDirectory name ∧
        prepared.isFile file.1 = true :=
    fun _ => exists_artifact_of_mem_collectionPlan coordinates ready writes written
  have room : ∀ file ∈ prepared.collectionPlan settings.resources settings.classpathDirectory,
      prepared.HasRoom file.2 := by
    intro file member
    obtain ⟨name, isArtifact, same, -⟩ := plan file member
    rw [same]
    exact ready.hasRoom (mem_writtenPaths_iff.2 (.inr ⟨name, isArtifact, .inr rfl⟩)) writes
  obtain ⟨copied, overlaid, copies, later⟩ := FileTree.exists_copyFiles
    (fun file member => (plan file member).choose_spec.2.2) room
  refine ⟨copied, overlaid, copies, later.mono (fun _ never => never) ?_⟩
  rintro place ⟨path, member, same⟩
  obtain ⟨file, isFile, isTarget⟩ := List.mem_map.1 member
  obtain ⟨name, isArtifact, isBelow, -⟩ := plan file isFile
  refine ⟨path, List.mem_map.2 ⟨name, isArtifact, ?_⟩, same⟩
  rw [← isTarget, isBelow]

end Prepared

/-- Where a host writes files of some names, below the directory for classes. -/
def classPaths (settings : Settings) (classNames : List Place) : List Path :=
  classNames.map fun names => settings.classes.join (.ofNames names)

section Classes

variable {classNames : List Place}
  (each : ∀ names ∈ classNames, names ≠ [] ∧ ∀ name ∈ names, Path.IsFileName name)

include each

theorem isBelow_of_mem_classPaths : ∀ path ∈ classPaths settings classNames,
    settings.classes.IsBelow path :=
  List.forall_mem_map.2 fun names member =>
    Path.isBelow_join_ofNames _ (each names member).1 (each names member).2

/-- What the directory for classes offers has been written there by the host. -/
theorem mem_classNames_of_offered? (ready : Ready settings generated tree)
    {overlaid : FileTree} {paths : List Path}
    (writes : FileTree.OnlyWrites paths tree overlaid)
    (written : ∀ path ∈ paths, path ∈ classPaths settings classNames ∨
      path ∈ writtenPaths settings generated)
    {names : Place} {contents : ByteArray}
    (offered : overlaid.offered? settings.classes names = some contents) :
    names ∈ classNames := by
  rw [FileTree.offered?] at offered
  split at offered
  · obtain ⟨path, isPath, same⟩ := FileTree.exists_path_of_contents? writes
      (ready.bare _ (.inr (List.prefix_append _ _))) offered
    rcases written path isPath with isClass | isWritten
    · obtain ⟨others, isOther, rfl⟩ := List.mem_map.1 isClass
      rw [Path.place_join_names _ (each others isOther).1 (each others isOther).2] at same
      rw [List.append_cancel_left same]
      exact isOther
    · exact absurd ⟨names, same⟩ (ready.classesApart path isWritten)
  · cases offered

/-- The classes that a host has written are copied where there is room for them. -/
theorem exists_copyClasses (ready : Ready settings generated tree)
    (room : ∀ names ∈ classNames, tree.HasRoom (settings.classes.join (.ofNames names)) ∧
      tree.HasRoom (settings.classpathDirectory.join (.ofNames names)))
    (listed : settings.classes.listed = settings.classes)
    {overlaid : FileTree} {paths : List Path}
    (writes : FileTree.OnlyWrites paths tree overlaid)
    (written : ∀ path ∈ paths, path ∈ classPaths settings classNames ∨
      path ∈ writtenPaths settings generated) :
    ∃ copied after, overlaid.copyFiles
      (overlaid.collectionPlan settings.classes settings.classpathDirectory) =
        (.ok copied, after) := by
  have plan : ∀ file ∈ overlaid.collectionPlan settings.classes settings.classpathDirectory,
      overlaid.isFile file.1 = true ∧ overlaid.HasRoom file.2 := by
    intro file member
    rw [FileTree.collectionPlan_eq, listed] at member
    obtain ⟨names, isListed, same⟩ := List.mem_map.1 member
    obtain ⟨offers, isOffered⟩ := FileTree.mem_listing_iff.1 isListed
    have isClass := mem_classNames_of_offered? each ready writes written isOffered
    obtain ⟨nonempty, isFileName⟩ := each names isClass
    obtain ⟨roomHere, roomThere⟩ := room names isClass
    obtain ⟨contents, holds⟩ := FileTree.exists_contents?_of_mem_listing isListed
    rw [← Path.place_join_names _ nonempty isFileName] at holds
    rw [← same]
    exact ⟨FileTree.isFile_of_contents? (roomHere.of_onlyWrites writes) holds,
      roomThere.of_onlyWrites writes⟩
  obtain ⟨copied, after, copies, -⟩ := FileTree.exists_copyFiles
    (fun file member => (plan file member).1) fun file member => (plan file member).2
  exact ⟨copied, after, copies⟩

omit each in
/-- Apart from the classes of the host, a run writes only where it may. -/
theorem mem_classPaths_or_writtenPaths {hints : HintRegistry} :
    ∀ path ∈ sourcePaths settings generated ++ classPaths settings classNames ++
        hintPaths settings hints ++ [StartupArguments.path settings] ++
        artifactNames.map (settings.artifactBelow settings.classpathDirectory),
      path ∈ classPaths settings classNames ∨ path ∈ writtenPaths settings generated := by
  intro path member
  rw [mem_writtenPaths_iff]
  simp only [List.mem_append, List.mem_singleton, List.mem_map] at member
  rcases member with (((source | isClass) | hint) | arguments) | ⟨name, delivered, same⟩
  · exact .inr (.inl source)
  · exact .inl isClass
  · obtain ⟨name, isArtifact, same⟩ := exists_artifact_of_mem_hintPaths hint
    exact .inr (.inr ⟨name, isArtifact, .inl same⟩)
  · exact .inr (.inr ⟨_, (by decide : StartupArguments.fileName ∈ artifactNames),
      .inl arguments⟩)
  · exact .inr (.inr ⟨name, delivered, .inr same.symm⟩)

/-- A run into a tree that is ready goes through if the host compiles its sources and there is
room for the classes that it writes. -/
theorem exists_trace_of_compile (coordinates : settings.HasCoordinates) {context : Context}
    (matched : settings.application = graph.application)
    (generates : graph.generate .empty = (.ok generated, context))
    (ready : Ready settings generated tree)
    (room : ∀ names ∈ classNames, tree.HasRoom (settings.classes.join (.ofNames names)) ∧
      tree.HasRoom (settings.classpathDirectory.join (.ofNames names)))
    (listed : settings.classes.listed = settings.classes)
    (apart : ∀ path ∈ classPaths settings classNames,
      ¬ settings.resources.place <+: path.place)
    (compiles : ∀ sourced, FileTree.OnlyWrites (sourcePaths settings generated) tree sourced →
      ∃ compiled, host.compile (sourced.sourcesUnder settings.sources) settings.classes
          ⟨sourced, []⟩ = (.ok [], compiled) ∧
        FileTree.OnlyWrites (classPaths settings classNames) sourced compiled.files) :
    ∃ outcome after, outcome.hints = context.hints ∧
      ∃ trace : Trace settings host graph ⟨tree, []⟩ outcome after,
        ∀ names contents, trace.overlaid.offered? settings.classes names = some contents →
          names ∈ classNames := by
  obtain ⟨sourceFiles, sourced, writesSources, toSources⟩ := ready.exists_writeSources
  obtain ⟨compiled, isCompiled, toClasses⟩ := compiles sourced toSources
  have toCompiled := toSources.append toClasses
  obtain ⟨hintFiles, hinted, writesHints, toHints⟩ :=
    ready.exists_writeHints toCompiled context.hints
  have isArguments : StartupArguments.fileName ∈ artifactNames := by decide
  have argumentsBelow : settings.resources.place <+: (StartupArguments.path settings).place :=
    ⟨_, (Settings.place_artifactBelow coordinates isArguments settings.resources).symm⟩
  -- What has been written so far are sources, classes and hints.
  have outside : ∀ path ∈ sourcePaths settings generated ++ classPaths settings classNames,
      ¬ settings.resources.place <+: path.place :=
    List.forall_mem_append.2 ⟨ready.sourcesApart, apart⟩
  obtain ⟨prepared, writesArguments, toArguments⟩ :=
    ready.exists_writeArguments argumentsBelow toHints (List.forall_mem_append.2
      ⟨fun path member same => outside path member (same ▸ argumentsBelow),
        fun path isHint => place_arguments_ne_place_hint isHint⟩)
  obtain ⟨copied, overlaid, copiesResources, resources⟩ :=
    exists_copyResources coordinates ready toArguments (List.forall_mem_append.2
      ⟨List.forall_mem_append.2 ⟨fun path member => .inl (outside path member),
          fun _ member => .inr (exists_artifact_of_mem_hintPaths member)⟩,
        List.forall_mem_singleton.2 (.inr ⟨_, isArguments, rfl⟩)⟩)
  have toOverlaid := toArguments.append resources
  obtain ⟨collected, after, copiesClasses⟩ :=
    exists_copyClasses each ready room listed toOverlaid mem_classPaths_or_writtenPaths
  exact ⟨⟨generated, context.hints, sourced.sourcesUnder settings.sources, [], hintFiles,
    .written, copied ++ collected⟩, ⟨after, compiled.requests⟩, rfl,
    ⟨context, sourceFiles, sourced, compiled, hinted, prepared, copied, overlaid,
      collected, matched, generates, rfl, writesSources, rfl, isCompiled, writesHints,
      writesArguments, copiesResources, copiesClasses, rfl, rfl⟩,
    fun _ _ => mem_classNames_of_offered? each ready toOverlaid mem_classPaths_or_writtenPaths⟩

end Classes

/-- A run into a tree that is ready goes through if the host is quiet, and finds no classes. -/
theorem exists_trace (coordinates : settings.HasCoordinates) {context : Context}
    (matched : settings.application = graph.application)
    (generates : graph.generate .empty = (.ok generated, context))
    (ready : Ready settings generated tree)
    (listed : settings.classes.listed = settings.classes) (quiet : host.IsQuiet) :
    ∃ outcome after, outcome.hints = context.hints ∧
      ∃ trace : Trace settings host graph ⟨tree, []⟩ outcome after,
        ∀ names, trace.overlaid.offered? settings.classes names = none := by
  obtain ⟨outcome, after, hints, trace, classless⟩ :=
    exists_trace_of_compile (List.forall_mem_nil _) coordinates matched generates ready
      (List.forall_mem_nil _) listed (List.forall_mem_nil _) fun sourced toSources => by
        obtain ⟨requests, compiles⟩ := Host.exists_compile (quiet _ sourced)
          (FileTree.isDirectory_of_edits toSources ready.classes) []
        exact ⟨⟨sourced, requests⟩, compiles, .done⟩
  refine ⟨outcome, after, hints, trace, fun names => ?_⟩
  cases offered : trace.overlaid.offered? settings.classes names with
  | none =>
      rfl
  | some contents =>
      exact absurd (classless names contents offered) List.not_mem_nil

end Pipeline

end AheadOfTime
