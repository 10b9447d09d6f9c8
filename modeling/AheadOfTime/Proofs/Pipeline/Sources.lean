import AheadOfTime.Proofs.Compilation.Sources
import AheadOfTime.Proofs.Pipeline.Delivery

/-!
# All sources are compiled at once

Sources are written by joining paths and found by listing a directory.  A run that has
written its sources finds them all, so that there is something to compile, and asks the host
once for everything that it has found.
-/

namespace AheadOfTime

/-- Seen from an absolute directory, the directory for sources is absolute. -/
theorem Settings.isAbsolute_sources_of_resolve {configuration : Configuration}
    {workingDirectory : Path} {settings : Settings}
    (resolved : configuration.resolve workingDirectory = .ok settings)
    (absolute : workingDirectory.isAbsolute = true) :
    settings.sources.isAbsolute = true := by
  obtain ⟨sources, -, seen⟩ :=
    Option.map_eq_some_iff.1 (Configuration.resolvesTo_of_resolve resolved).sources
  rw [← seen]
  exact Path.isAbsolute_join_of_isAbsolute absolute sources

theorem TypeName.suffix_sourceName (type : TypeName) :
    sourceSuffix <:+ (type.simple.text ++ ".java").toList := by
  rw [String.toList_append]
  exact List.suffix_append _ _

/-- Whether paths are files below a directory with names of source files, those of the units
among them, at least one, and ascending by components. -/
structure FileTree.FindsSources (tree : FileTree) (directory : Path)
    (units : List Java.SourceUnit) (sources : List Path) : Prop where
  units : ∀ unit ∈ units, ∃ path ∈ sources,
    path.components = (directory.join unit.name.sourcePath).components
  files : ∀ path ∈ sources, ∃ front last contents,
    path.components = directory.components ++ (front ++ [last]).map Component.name ∧
      sourceSuffix <:+ last.toList ∧ tree.node? path.place = some (.file contents)
  ascending : sources.Pairwise fun first second => first.precedes second = true
  nonempty : sources ≠ []

/-- Sources that have been written are found. -/
theorem FileTree.findsSources_of_writeSources {tree sourced : FileTree}
    {generated : Generated} {directory : Path} {paths : List Path}
    (listable : directory.IsListable)
    (written : tree.writeSources generated.units directory = (.ok paths, sourced)) :
    sourced.FindsSources directory generated.units (sourced.sourcesUnder directory) := by
  rw [writeSources] at written
  have there : ∀ unit ∈ generated.units,
      sourced.isFile (directory.join unit.name.sourcePath) = true := fun unit isUnit =>
    isFile_of_writeTexts written (directory.join unit.name.sourcePath, unit.body)
      (List.mem_map.2 ⟨unit, isUnit, rfl⟩)
  have first : generated.initializer.source ∈ generated.units := List.mem_cons_self
  have isListed : sourced.IsListed directory := by
    obtain ⟨contents, reads⟩ := Option.isSome_iff_exists.1 (there _ first)
    exact ⟨listable, isDirectory_of_locate?_join listable.1
      (TypeName.sourceNames_ne_nil _) (fun _ => TypeName.isFileName_of_mem_sourceNames)
      (of_read? reads).1⟩
  have units : ∀ unit ∈ generated.units, ∃ path ∈ sourced.sourcesUnder directory,
      path.components = (directory.join unit.name.sourcePath).components :=
    fun unit isUnit => exists_mem_sourcesUnder isListed
      (fun _ => TypeName.isFileName_of_mem_sourceNames) unit.name.suffix_sourceName
      (there unit isUnit)
  refine ⟨units, fun path found => of_mem_sourcesUnder isListed found,
    ascending_sourcesUnder isListed, fun empty => ?_⟩
  obtain ⟨path, found, -⟩ := units _ first
  rw [empty] at found
  cases found

namespace Pipeline

variable {settings : Settings} {host : Host} {graph : Graph} {generated : Generated}
  {hints : HintRegistry} {before after : Workspace} {result : Except RunError RunOutcome}

theorem requests_collectStage (make : List Path → RunOutcome) (workspace : Workspace) :
    (collectStage settings make workspace).2.requests = workspace.requests := by
  unfold collectStage
  cases workspace.files.collect settings.classpathDirectory
      [settings.resources, settings.classes] with
  | mk result files =>
      cases result with
      | error fault =>
          rfl
      | ok targets =>
          rfl

theorem requests_argumentsStage (make : StartupArguments.Outcome → List Path → RunOutcome)
    (workspace : Workspace) :
    (argumentsStage settings make workspace).2.requests = workspace.requests := by
  unfold argumentsStage
  cases StartupArguments.write settings workspace.files with
  | mk result files =>
      cases result with
      | error obstacle =>
          rfl
      | ok arguments =>
          exact requests_collectStage (make arguments) { workspace with files }

/-- No stage after the compilation asks the host. -/
theorem requests_hintStage
    (make : List Path → StartupArguments.Outcome → List Path → RunOutcome)
    (workspace : Workspace) :
    (hintStage settings hints make workspace).2.requests = workspace.requests := by
  unfold hintStage
  cases workspace.files.writeHints hints settings.nativeImageDirectory with
  | mk result files =>
      cases result with
      | error obstacle =>
          rfl
      | ok hintFiles =>
          exact requests_argumentsStage (make hintFiles) { workspace with files }

theorem requests_compileStage (workspace : Workspace) :
    (compileStage settings host generated hints workspace).2.requests =
      (host.compile (workspace.files.sourcesUnder settings.sources) settings.classes
        workspace).2.requests := by
  unfold compileStage
  cases compiles : host.compile (workspace.files.sourcesUnder settings.sources) settings.classes
      workspace with
  | mk verdict compiled =>
      cases verdict with
      | error error =>
          simp only [compiles]
          rfl
      | ok diagnostics =>
          simp only [compiles]
          exact requests_hintStage _ compiled

/-- A run that gets past the writing of sources goes on with the compilation. -/
theorem of_stages_past_sources
    (ended : stages settings host graph before = (result, after))
    (passed : ∀ stage ∈ [Stage.configuration, .generation, .sourceWriting],
      failedStage? result ≠ some stage) :
    ∃ generated context paths sourced, graph.generate .empty = (.ok generated, context) ∧
      before.files.writeSources generated.units settings.sources = (.ok paths, sourced) ∧
      compileStage settings host generated context.hints { before with files := sourced } =
        (result, after) := by
  unfold stages at ended
  cases matched : settings.checkApplication graph.application with
  | error mismatch =>
      rw [matched] at ended
      cases ended
      exact absurd rfl (passed .configuration (by decide))
  | ok same =>
      cases made : graph.generate .empty with
      | mk units context =>
          rw [matched, made] at ended
          cases units with
          | error error =>
              cases ended
              exact absurd rfl (passed .generation (by decide))
          | ok generated =>
              simp only at ended
              unfold sourceStage at ended
              cases written : before.files.writeSources generated.units settings.sources with
              | mk paths sourced =>
                  rw [written] at ended
                  cases paths with
                  | error obstacle =>
                      cases ended
                      exact absurd rfl (passed .sourceWriting (by decide))
                  | ok paths =>
                      exact ⟨generated, context, paths, sourced, rfl, written, ended⟩

/-- What the compilation of sources asks for, and what it finds. -/
theorem of_compileStage
    (nonempty : before.files.sourcesUnder settings.sources ≠ [])
    (ended : compileStage settings host generated hints before = (result, after)) :
    (∀ outcome, result = .ok outcome →
      outcome.sources = before.files.sourcesUnder settings.sources) ∧
    match before.files.makeDirectories settings.classes with
    | (made, true) =>
        host.compile (before.files.sourcesUnder settings.sources) settings.classes before =
          host.ask ⟨before.files.sourcesUnder settings.sources, settings.classes⟩
            { before with files := made } ∧
        after.requests = before.requests ++
          [⟨before.files.sourcesUnder settings.sources, settings.classes⟩]
    | (_, false) =>
        result = .error ⟨.compilation, .compilation (.noDirectory settings.classes)⟩ ∧
        after.requests = before.requests := by
  have requests : (compileStage settings host generated hints before).2.requests =
      (host.compile (before.files.sourcesUnder settings.sources) settings.classes
        before).2.requests :=
    requests_compileStage before
  rw [ended] at requests
  constructor
  · rintro outcome rfl
    obtain ⟨diagnostics, compiled, -, ended⟩ := of_compileStage_ok ended
    obtain ⟨hintFiles, hinted, -, ended⟩ := of_hintStage_ok ended
    obtain ⟨arguments, prepared, -, ended⟩ := of_argumentsStage_ok ended
    obtain ⟨targets, -, made, -⟩ := of_collectStage_ok ended
    rw [made]
  · cases makes : before.files.makeDirectories settings.classes with
    | mk made there =>
        cases there with
        | true =>
            have compile := host.compile_of_directory nonempty makes
            refine ⟨compile, requests.trans ?_⟩
            rw [compile, host.ask_eq]
        | false =>
            have compile := host.compile_of_no_directory nonempty makes
            refine ⟨?_, requests.trans (congrArg (fun asked => asked.2.requests) compile)⟩
            unfold compileStage at ended
            simp only [compile] at ended
            exact (congrArg Prod.fst ended).symm

/-- Everything that is generated is compiled, in one invocation: whatever its directories are
called, a run that gets past the writing of sources finds the file of every unit, and asks the
host once for exactly the files that it has found, unless the directory for classes cannot be
made. -/
theorem generated_sources_are_compiled_at_once {configuration : Configuration}
    {workingDirectory : Path} {settings : Settings}
    (resolved : configuration.resolve workingDirectory = .ok settings)
    (absolute : workingDirectory.isAbsolute = true) {host : Host} {graph : Graph}
    {before after : Workspace} {result : Except RunError RunOutcome} {pipeline : Pipeline}
    (ran : (start settings host).run graph before = (result, pipeline, after))
    (passed : ∀ stage ∈ [Stage.configuration, .generation, .sourceWriting],
      failedStage? result ≠ some stage) :
    ∃ generated context paths sourced,
      graph.generate .empty = (.ok generated, context) ∧
      before.files.writeSources generated.units settings.sources = (.ok paths, sourced) ∧
      let sources := sourced.sourcesUnder settings.sources
      sourced.FindsSources settings.sources generated.units sources ∧
      (∀ outcome, result = .ok outcome → outcome.sources = sources) ∧
      match sourced.makeDirectories settings.classes with
      | (made, true) =>
          host.compile sources settings.classes { before with files := sourced } =
            host.ask ⟨sources, settings.classes⟩ { before with files := made } ∧
          after.requests = before.requests ++ [⟨sources, settings.classes⟩]
      | (_, false) =>
          result = .error ⟨.compilation, .compilation (.noDirectory settings.classes)⟩ ∧
          after.requests = before.requests := by
  have listable := Path.isListable_of_isAbsolute
    (Settings.isAbsolute_sources_of_resolve resolved absolute)
  have ended : stages settings host graph before = (result, after) := by
    have fresh : (start settings host).state = .idle := rfl
    rw [run, if_pos fresh] at ran
    have same := congrArg Prod.fst ran
    have sameAfter := congrArg (fun whole => whole.2.2) ran
    exact Prod.ext same sameAfter
  obtain ⟨generated, context, paths, sourced, generates, written, compiles⟩ :=
    of_stages_past_sources ended passed
  have finds := FileTree.findsSources_of_writeSources listable written
  have filled : ({ before with files := sourced } : Workspace).files.sourcesUnder
      settings.sources ≠ [] := finds.nonempty
  have compiled := of_compileStage filled compiles
  exact ⟨generated, context, paths, sourced, generates, written, finds, compiled⟩

/-- The run for the bare application compiles the file of its initializer. -/
theorem bare_run_compiles_initializer : ∃ outcome after,
    (bareConfiguration ⟨"d"⟩).resolve ⟨"/"⟩ = .ok (bareSettings ⟨"/d"⟩) ∧
    (start (bareSettings ⟨"/d"⟩) idleHost).run bareGraph ⟨bareTree, []⟩ =
      (.ok outcome, ⟨bareSettings ⟨"/d"⟩, idleHost, .done⟩, after) ∧
    outcome.sources ≠ [] ∧ after.requests = [⟨outcome.sources, ⟨"/k"⟩⟩] := by
  have place : (⟨"/d"⟩ : Path).place = ["d"] := by decide
  obtain ⟨outcome, after, trace, -, -⟩ :=
    exists_bareTrace place (by decide) (by decide +kernel) (by decide +kernel)
  have resolved : (bareConfiguration ⟨"d"⟩).resolve ⟨"/"⟩ = .ok (bareSettings ⟨"/d"⟩) := by
    decide +kernel
  have ran : (start (bareSettings ⟨"/d"⟩) idleHost).run bareGraph ⟨bareTree, []⟩ =
      (.ok outcome, ⟨bareSettings ⟨"/d"⟩, idleHost, .done⟩, after) :=
    run_eq_ok_iff.2 ⟨rfl, ⟨trace⟩⟩
  obtain ⟨generated, context, paths, sourced, -, -, finds, found, asks⟩ :=
    generated_sources_are_compiled_at_once resolved (by decide) ran fun stage _ => nofun
  have same := found outcome rfl
  refine ⟨outcome, after, resolved, ran, same ▸ finds.nonempty, ?_⟩
  cases makes : sourced.makeDirectories (bareSettings ⟨"/d"⟩).classes with
  | mk made there =>
      rw [makes] at asks
      cases there with
      | true =>
          rw [same]
          exact asks.2
      | false =>
          cases asks.1

end Pipeline

end AheadOfTime
