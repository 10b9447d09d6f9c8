import AheadOfTime.CommandLine
import AheadOfTime.Proofs.Pipeline.Written

/-!
# Previews of a run

The commands that show sources and hints read the same options as the one that runs the
pipeline, load the same graph and generate the same classes.  So they print what a run
writes, and change nothing.  As settings and graph come from one configuration, a run that
has got both is never refused for being about another application.
-/

namespace AheadOfTime

namespace CommandLine

def Request.forCommand (command : Command) : Request → Request
  | .command _ options => .command command options
  | .version => .version
  | .help => .help

theorem bind_eq_map_bind {α : Type} {attempt : Except Misuse α}
    {first second : α → Except Misuse Request} {change : Request → Request}
    (same : ∀ value, attempt = .ok value → second value = (first value).map change) :
    attempt.bind second = (attempt.bind first).map change := by
  cases attempt with
  | error misuse =>
      rfl
  | ok value =>
      exact same value rfl

theorem forCommand_of_readLetters (command : Command) {versionAllowed : Bool}
    {letters : List Char} {request : Request}
    (asks : readLetters versionAllowed letters = .ok (some request)) :
    request.forCommand command = request := by
  fun_induction readLetters versionAllowed letters with
  | case1 =>
      cases asks
  | case2 rest again =>
      exact again asks
  | case3 rest =>
      cases asks
      rfl
  | case4 c rest allowed =>
      cases asks
      rfl
  | case5 c rest refused =>
      cases asks

theorem readOptions_forCommand (first second : Command) (options : Options)
    (arguments : List String) :
    readOptions second options arguments =
      (readOptions first options arguments).map (Request.forCommand second) := by
  fun_induction readOptions first options arguments with
  | case1 =>
      rfl
  | case5 options argument rest letters isShort again =>
      rw [readOptions.eq_def]
      simp only [isShort]
      refine bind_eq_map_bind fun asked asks => ?_
      cases asked with
      | none =>
          exact again
      | some request =>
          exact congrArg Except.ok (forCommand_of_readLetters second asks).symm
  | case6 options argument name option found value rest isLong again =>
      rw [readOptions.eq_def]
      simp only [isLong, found]
      exact bind_eq_map_bind fun given _ => again given
  | case8 options argument name option found next rest isWord isLong again =>
      rw [readOptions.eq_def]
      simp only [isLong, found, if_pos isWord]
      exact bind_eq_map_bind fun given _ => again given
  | case11 options argument rest value noValue isLong unfound again =>
      rw [readOptions.eq_def]
      simp only [isLong, unfound, if_neg noValue, if_true]
      exact bind_eq_map_bind fun given _ => again given
  | case12 options argument rest value noValue isLong unfound other again =>
      rw [readOptions.eq_def]
      simp only [isLong, unfound, if_neg noValue, if_neg other, if_true]
      exact again
  | _ =>
      -- In the other cases no argument is read after this one.
      rw [readOptions.eq_def]
      simp only [*, if_true, if_false]
      rfl

/-- The words for commands are read alike, but for the command that they ask for. -/
theorem read_forCommand (arguments : List String) {word : String} {command : Command}
    (isWord : (word, command) ∈ Command.words) :
    read (word :: arguments) =
      (read ("process" :: arguments)).map (Request.forCommand command) := by
  have reads : ∀ entry ∈ Command.words,
      read (entry.1 :: arguments) = readOptions entry.2 noOptions arguments := by
    simp only [Command.words, List.forall_mem_cons]
    exact ⟨rfl, rfl, rfl, List.forall_mem_nil _⟩
  rw [reads _ isWord, reads ("process", .run) List.mem_cons_self]
  exact readOptions_forCommand .run command noOptions arguments

/-- A graph is loaded from a file that holds one, for the application that is configured. -/
theorem Options.graphFor_eq_ok_iff {application : Option TypeName} {path : Path}
    {files : FileTree} {graph : Graph} :
    Options.graphFor application path files = .ok graph ↔
      files.readGraph path = .ok graph ∧
        ∀ configured, application = some configured → configured = graph.application := by
  constructor
  · intro loads
    obtain ⟨decoded, reads, checks⟩ := exists_of_bind_eq_ok loads
    have isRead := mapError_eq_ok_iff.1 reads
    cases application with
    | none =>
        rw [← Except.ok.inj checks]
        exact ⟨isRead, nofun⟩
    | some configured =>
        simp only at checks
        split at checks
        · rename_i same
          rw [← Except.ok.inj checks]
          exact ⟨isRead, fun _ isConfigured => Option.some.inj isConfigured ▸ same⟩
        · cases checks
  · rintro ⟨isRead, same⟩
    rw [graphFor, isRead]
    cases application with
    | none =>
        rfl
    | some configured =>
        exact if_pos (same configured rfl)

/-- Settings and graph come from one configuration, so they are for the same application. -/
theorem Options.application_eq {options : Options} {current : Path} {files : FileTree}
    {settings : Settings} {graph : Graph}
    (resolved : options.settings current files = .ok settings)
    (loaded : options.graph current files = .ok graph) :
    settings.application = graph.application := by
  obtain ⟨configuration, loads, resolves⟩ := exists_of_bind_eq_ok resolved
  obtain ⟨again, loadsAgain, finds⟩ := exists_of_bind_eq_ok loaded
  rw [loads] at loadsAgain
  cases loadsAgain
  cases made : configuration.resolve (options.projectDirectory current) with
  | error error =>
      rw [made] at resolves
      cases resolves
  | ok read =>
      rw [made] at resolves
      cases resolves
      cases named : configuration.graph with
      | none =>
          simp only [named] at finds
          cases finds
      | some path =>
          simp only [named, (Configuration.resolvesTo_of_resolve made).application] at finds
          exact (graphFor_eq_ok_iff.1 finds).2 _ rfl

/-! ## Commands -/

section Commands

variable {launcher : Launcher} {options : Options} {current : Path}
  {settings : Settings} {graph : Graph} {before after : Workspace} {outcome : RunOutcome}

/-- The commands that show sources and hints print what is in the files that the run has
written: the initializer before a helper, and the hints of a category after those of the
categories before it. -/
structure Previewed (launcher : Launcher) (options : Options) (current : Path)
    (trace : Pipeline.Trace settings ((Javac.ofSettings settings).host launcher) graph before
      outcome after) : Prop where
  mainFirst : (outcome.generated.units.map Java.SourceUnit.name).head? =
    some (graph.initializerName .empty)
  sources : execute launcher .showSources options current before =
    (.ok (String.join (outcome.generated.units.map fun unit =>
      "// " ++ unit.name.sourcePath.text ++ "\n" ++ unit.body ++ "\n")), before)
  sourcePaths : trace.sourcePaths =
    outcome.generated.units.map fun unit => settings.sources.join unit.name.sourcePath
  sourced : ∀ unit ∈ outcome.generated.units,
    trace.sourced.read? (settings.sources.join unit.name.sourcePath) = some unit.body.toUTF8
  hints : execute launcher .showHints options current before =
    (.ok (String.join ((NativeConfiguration.ofRegistry outcome.hints).files.map fun file =>
      "// " ++ file.name ++ "\n" ++ file.contents)), before)
  inOrder : ((NativeConfiguration.ofRegistry outcome.hints).files.map
    ConfigurationFile.name).Sublist ["reflect-config.json", "resource-config.json",
      "proxy-config.json", "serialization-config.json"]
  hintPaths : outcome.hintFiles = (NativeConfiguration.ofRegistry outcome.hints).files.map
    fun file => settings.nativeImageDirectory.join ⟨file.name⟩
  hinted : ∀ file ∈ (NativeConfiguration.ofRegistry outcome.hints).files,
    trace.hinted.read? (settings.nativeImageDirectory.join ⟨file.name⟩) =
      some file.contents.toUTF8

theorem previewed (loaded : options.graph current before.files = .ok graph)
    (trace : Pipeline.Trace settings ((Javac.ofSettings settings).host launcher) graph before
      outcome after) : Previewed launcher options current trace := by
  have makes : generated graph = .ok (outcome.generated, outcome.hints) := by
    rw [generated, trace.generates, trace.hints]
  obtain ⟨-, isGenerated, -⟩ := graph.of_generate_eq_ok .empty trace.generates
  obtain ⟨sourcePaths, sourced⟩ := trace.read?_sources
  obtain ⟨hintPaths, hinted⟩ := FileTree.of_writeHints trace.writesHints
  have showsSources : execute launcher .showSources options current before =
      (sourcesText graph, before) := by
    rw [execute, loaded]
    rfl
  have showsHints : execute launcher .showHints options current before =
      (hintsText graph, before) := by
    rw [execute, loaded]
    rfl
  constructor
  · rw [isGenerated, Graph.names_units_generatedIn, Graph.unitNames, List.head?_cons]
  · rw [showsSources, sourcesText, makes]
    rfl
  · exact sourcePaths
  · exact sourced
  · rw [showsHints, hintsText, makes]
    rfl
  · exact NativeConfiguration.sublist_names_files _
  · exact hintPaths
  · exact hinted

/-- The command goes through exactly if settings and graph can be read and the pipeline goes
through for them. -/
theorem execute_run_eq_ok_iff {told : String} :
    execute launcher .run options current before = (.ok told, after) ↔
      ∃ settings graph outcome, options.settings current before.files = .ok settings ∧
        options.graph current before.files = .ok graph ∧ told = summary settings outcome ∧
        Nonempty (Pipeline.Trace settings ((Javac.ofSettings settings).host launcher) graph
          before outcome after) := by
  rw [execute, runPipeline]
  constructor
  · intro ends
    cases resolved : options.settings current before.files with
    | error failure =>
        rw [resolved] at ends
        cases ends
    | ok settings =>
        cases loaded : options.graph current before.files with
        | error failure =>
            rw [resolved, loaded] at ends
            cases ends
        | ok graph =>
            simp only [resolved, loaded] at ends
            split at ends
            · cases ends
            · rename_i outcome pipeline final runs
              cases ends
              exact ⟨settings, graph, outcome, rfl, rfl, rfl,
                (Pipeline.run_eq_ok_iff.1 runs).2⟩
  · rintro ⟨settings, graph, outcome, resolved, loaded, rfl, traced⟩
    simp only [resolved, loaded, Pipeline.run_eq_ok_iff.2 ⟨rfl, traced⟩]

/-- A pipeline for the settings and the graph of one configuration does not fail for being
about another application. -/
theorem stage_ne_configuration (resolved : options.settings current before.files = .ok settings)
    (loaded : options.graph current before.files = .ok graph) {host : Host} {error : RunError}
    (fails : ((Pipeline.start settings host).run graph before).1 = .error error) :
    error.stage ≠ .configuration := by
  have matched : settings.checkApplication graph.application = .ok () :=
    if_pos (Options.application_eq resolved loaded)
  have fresh : (Pipeline.start settings host).state = .idle := rfl
  rw [Pipeline.run, if_pos fresh] at fails
  cases ended : Pipeline.stages settings host graph before with
  | mk result after =>
      simp only [Pipeline.start, ended] at fails
      intro same
      refine Pipeline.failedStage?_ne_configuration matched ended ?_
      rw [fails, Pipeline.failedStage?, same]

end Commands

/-- If a run goes through, the commands that show sources and hints go through for the same
files and print what the run writes, the initializer first.  They never change a file.
Settings and graph, when both have been read, are for one application, so a run never fails
for being about another one.  With the arguments of a run, the other commands get its
options. -/
theorem previews_agree_with_run (launcher : Launcher) (options : Options) (current : Path)
    (before : Workspace) :
    (∀ told after, execute launcher .run options current before = (.ok told, after) →
      ∃ settings graph outcome,
        options.settings current before.files = .ok settings ∧
        options.graph current before.files = .ok graph ∧
        told = summary settings outcome ∧
        ∃ trace : Pipeline.Trace settings ((Javac.ofSettings settings).host launcher) graph
            before outcome after,
          Previewed launcher options current trace) ∧
    (∀ command, command ≠ .run →
      (execute launcher command options current before).2 = before) ∧
    (∀ settings graph, options.settings current before.files = .ok settings →
      options.graph current before.files = .ok graph →
      settings.checkApplication graph.application = .ok () ∧
      ∀ error, ((Pipeline.start settings ((Javac.ofSettings settings).host launcher)).run graph
        before).1 = .error error → error.stage ≠ .configuration) ∧
    ∀ arguments, read ("process" :: arguments) = .ok (.command .run options) →
      ∀ entry ∈ Command.words,
        perform launcher (entry.1 :: arguments) current before =
          (match (execute launcher entry.2 options current before).1 with
            | .ok output => ⟨0, output, none⟩
            | .error failure => ⟨1, "", some failure.message⟩,
            (execute launcher entry.2 options current before).2) := by
  refine ⟨?_, ?_, ?_, ?_⟩
  · intro told after ends
    obtain ⟨settings, graph, outcome, resolved, loaded, tells, ⟨trace⟩⟩ :=
      execute_run_eq_ok_iff.1 ends
    exact ⟨settings, graph, outcome, resolved, loaded, tells, trace, previewed loaded trace⟩
  · intro command shows
    cases command with
    | run =>
        exact absurd rfl shows
    | showSources =>
        rfl
    | showHints =>
        rfl
  · intro settings graph resolved loaded
    exact ⟨if_pos (Options.application_eq resolved loaded),
      fun error fails => stage_ne_configuration resolved loaded fails⟩
  · intro arguments asks entry isWord
    rw [perform, read_forCommand arguments isWord, asks]
    rfl

/-- Programs that end well without a word. -/
def silentLauncher : Launcher :=
  fun _ _ files => (some ⟨true, "", ""⟩, files)

def bareOptions : Options :=
  ⟨none, none, { Pipeline.bareConfiguration ⟨"d"⟩ with graph := some ⟨"graph.json"⟩ }⟩

def resolvedSettings : Settings :=
  { Pipeline.bareSettings ⟨"/d"⟩ with graph := some ⟨"/graph.json"⟩ }

def bareFiles : FileTree :=
  Pipeline.bareTree.put ["graph.json"] (.file "\x7b\"application\":\"App\"\x7d".toUTF8)

theorem settings_bareOptions : bareOptions.settings ⟨"/"⟩ bareFiles = .ok resolvedSettings := by
  decide +kernel

theorem graph_bareOptions : bareOptions.graph ⟨"/"⟩ bareFiles = .ok Pipeline.bareGraph := by
  decide +kernel

theorem onlyWrites_bareFiles :
    FileTree.OnlyWrites [⟨"/graph.json"⟩] Pipeline.bareTree bareFiles := by
  have admits : Pipeline.bareTree.Admits ["graph.json"] := by decide +kernel
  exact .write .done admits ⟨_, List.mem_singleton_self _, by decide +kernel⟩ _

theorem ready_bareFiles {generated : Generated}
    (sources : generated.units.map (fun unit => unit.name.sourcePath) =
      [⟨"App__ApplicationContextInitializer.java"⟩]) :
    Pipeline.Ready resolvedSettings generated bareFiles := by
  have place : (⟨"/d"⟩ : Path).place = ["d"] := by decide
  have ready := (Pipeline.bareReady place (by decide) (by decide +kernel) (by decide +kernel)
    sources).of_onlyWrites onlyWrites_bareFiles
      (List.forall_mem_singleton.2 ⟨by decide, by decide⟩)
  exact ⟨ready.bare, ready.room, ready.classes, ready.listed, ready.classesApart,
    ready.sourcesApart⟩

/-- The only source that is found in the end is the one that was written. -/
theorem text_of_mem_sourcesUnder {sourced : FileTree}
    (writes : FileTree.OnlyWrites [⟨"/s/App__ApplicationContextInitializer.java"⟩] bareFiles
      sourced) {source : Path} (member : source ∈ sourced.sourcesUnder ⟨"/s"⟩) :
    source.text = "/s/App__ApplicationContextInitializer.java" := by
  obtain ⟨names, same, path, isPath, found⟩ := FileTree.exists_path_of_mem_sourcesUnder
    (onlyWrites_bareFiles.append writes)
    (fun names => Pipeline.contents?_of_directories (by decide) _) member
  have directory : (⟨"/s"⟩ : Path).place = ["s"] := by decide
  have graphPlace : (⟨"/graph.json"⟩ : Path).place = ["graph.json"] := by decide +kernel
  have sourcePlace : (⟨"/s/App__ApplicationContextInitializer.java"⟩ : Path).place =
      ["s", "App__ApplicationContextInitializer.java"] := by
    decide +kernel
  rw [directory] at found
  rcases List.mem_cons.1 isPath with isGraph | isSource
  · rw [isGraph, graphPlace] at found
    exact absurd (List.cons.inj found).1 (by decide)
  · rw [List.mem_singleton.1 isSource, sourcePlace] at found
    have names : names = ["App__ApplicationContextInitializer.java"] :=
      (List.cons.inj found).2
    rw [same, names]
    decide +kernel

/-- The compiler gets no argument that cannot be passed, so it runs. -/
theorem invoke_resolvedSettings {sourced : FileTree}
    (writes : FileTree.OnlyWrites [⟨"/s/App__ApplicationContextInitializer.java"⟩] bareFiles
      sourced) :
    ((Javac.ofSettings resolvedSettings).host silentLauncher).invoke
        ⟨sourced.sourcesUnder resolvedSettings.sources, resolvedSettings.classes⟩ sourced =
      (.ok ⟨true, [], []⟩, sourced) := by
  have sources : ∀ text ∈ (sourced.sourcesUnder ⟨"/s"⟩).map Path.text,
      Javac.isPassable text = true := by
    intro text member
    obtain ⟨source, found, same⟩ := List.mem_map.1 member
    rw [← same, text_of_mem_sourcesUnder writes found]
    decide
  have passable : (((Javac.ofSettings resolvedSettings).program ::
      (Javac.ofSettings resolvedSettings).arguments
        ⟨sourced.sourcesUnder resolvedSettings.sources, resolvedSettings.classes⟩).all
          Javac.isPassable) = true := by
    have others : ∀ text ∈ ["javac", "-d", "/k"], Javac.isPassable text = true := by decide
    exact List.all_eq_true.2 (List.forall_mem_append.2 ⟨others, sources⟩)
  have answers : Javac.report ⟨true, "", ""⟩ = ⟨true, [], []⟩ := by decide
  change Javac.invoke (Javac.ofSettings resolvedSettings) silentLauncher _ _ = _
  rw [Javac.invoke, Javac.launch, if_pos passable]
  exact congrArg (fun report => (Except.ok report, sourced)) answers

theorem exists_trace_bareFiles : ∃ outcome after, Nonempty (Pipeline.Trace resolvedSettings
    ((Javac.ofSettings resolvedSettings).host silentLauncher) Pipeline.bareGraph ⟨bareFiles, []⟩
    outcome after) := by
  obtain ⟨generated, context, generates, sources, -⟩ := Pipeline.exists_bareGenerated
  have ready := ready_bareFiles sources
  have coordinates : resolvedSettings.HasCoordinates :=
    ⟨(Pipeline.bareCoordinates ⟨"/d"⟩).group, (Pipeline.bareCoordinates ⟨"/d"⟩).artifact⟩
  have listed : resolvedSettings.classes.listed = resolvedSettings.classes := by decide
  have isSource : Pipeline.sourcePaths resolvedSettings generated =
      [⟨"/s/App__ApplicationContextInitializer.java"⟩] := by
    have below : Pipeline.sourcePaths resolvedSettings generated =
        (generated.units.map fun unit => unit.name.sourcePath).map (Path.join ⟨"/s"⟩) := by
      rw [Pipeline.sourcePaths, List.map_map]
      rfl
    rw [below, sources]
    decide
  obtain ⟨outcome, after, -, trace, -⟩ := Pipeline.exists_trace_of_compile
    (List.forall_mem_nil _) coordinates rfl generates ready
    (List.forall_mem_nil _) listed (List.forall_mem_nil _) fun sourced toSources => by
      rw [isSource] at toSources
      obtain ⟨requests, compiles⟩ := Host.exists_compile (invoke_resolvedSettings toSources)
        (FileTree.isDirectory_of_edits toSources ready.classes) []
      exact ⟨⟨sourced, requests⟩, compiles, .done⟩
  exact ⟨outcome, after, ⟨trace⟩⟩

theorem bare_run_is_previewed : ∃ told after,
    execute silentLauncher .run bareOptions ⟨"/"⟩ ⟨bareFiles, []⟩ = (.ok told, after) ∧
    ∃ outcome, ∃ trace : Pipeline.Trace resolvedSettings
        ((Javac.ofSettings resolvedSettings).host silentLauncher) Pipeline.bareGraph
        ⟨bareFiles, []⟩ outcome after,
      Previewed silentLauncher bareOptions ⟨"/"⟩ trace := by
  obtain ⟨outcome, after, ⟨trace⟩⟩ := exists_trace_bareFiles
  have runs : execute silentLauncher .run bareOptions ⟨"/"⟩ ⟨bareFiles, []⟩ =
      (.ok (summary resolvedSettings outcome), after) :=
    execute_run_eq_ok_iff.2 ⟨resolvedSettings, Pipeline.bareGraph, outcome, settings_bareOptions,
      graph_bareOptions, rfl, ⟨trace⟩⟩
  obtain ⟨agrees, -⟩ :=
    previews_agree_with_run silentLauncher bareOptions ⟨"/"⟩ ⟨bareFiles, []⟩
  obtain ⟨settings, graph, made, resolved, loaded, -, traced, previewed⟩ := agrees _ _ runs
  rw [settings_bareOptions] at resolved
  rw [graph_bareOptions] at loaded
  obtain rfl := Except.ok.inj resolved
  obtain rfl := Except.ok.inj loaded
  exact ⟨_, after, runs, made, traced, previewed⟩

end CommandLine

end AheadOfTime
