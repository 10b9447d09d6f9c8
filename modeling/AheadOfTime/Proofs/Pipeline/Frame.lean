import AheadOfTime.Pipeline
import AheadOfTime.Proofs.Compilation.Host
import AheadOfTime.Proofs.Pipeline.Places
import AheadOfTime.Proofs.StartupArguments

/-!
# What a run leaves alone

A run goes through its stages in order, and the stage that fails tells how far it got.
Each stage writes at known paths only, and the host is asked once at most.  A run that
has ended stays as it is.
-/

namespace AheadOfTime

/-- Whether only files at some paths were written, and no host was asked. -/
structure Workspace.WritesOnly (paths : List Path) (before after : Workspace) : Prop where
  quiet : after.requests = before.requests
  writes : FileTree.Writes paths before.files after.files

/-- Whether only a directory was made, with those above it, and no host was asked. -/
structure Workspace.MakesOnly (path : Path) (before after : Workspace) : Prop where
  quiet : after.requests = before.requests
  makes : FileTree.Makes path before.files after.files

/-- What a host may have done: it was not asked, or it was asked once. -/
inductive Host.Acts (host : Host) (before : Workspace) : Workspace → Prop where
  | unasked : Acts host before before
  | asked (request : CompileRequest) :
      Acts host before
        ⟨(host.invoke request before.files).2, before.requests ++ [request]⟩

/-- Whether a tree has changed only below a directory and at the place of it, but for
directories made on the way to it. -/
def FileTree.ChangesWithin (directory : Path) (before after : FileTree) : Prop :=
  ∀ place, after.node? place = before.node? place ∨ directory.place <+: place ∨
    (directory.Visits place ∧ before.node? place = none ∧
      after.node? place = some .directory)

namespace Pipeline

variable (settings : Settings) (host : Host)

def sourcePaths (generated : Generated) : List Path :=
  generated.units.map fun unit => settings.sources.join unit.name.sourcePath

def hintPaths (hints : HintRegistry) : List Path :=
  (NativeConfiguration.ofRegistry hints).files.map fun file =>
    settings.nativeImageDirectory.join ⟨file.name⟩

/-- Where hints and startup arguments are written. -/
def artifactPaths (hints : HintRegistry) : List Path :=
  hintPaths settings hints ++ [StartupArguments.path settings]

/-- The sources are written, the directory for classes is made, and the host is asked. -/
def Compiles (generated : Generated) (before after : Workspace) : Prop :=
  ∃ written made, Workspace.WritesOnly (sourcePaths settings generated) before written ∧
    Workspace.MakesOnly settings.classes written made ∧ host.Acts made after

def WritesHints (generated : Generated) (hints : HintRegistry) (before after : Workspace) :
    Prop :=
  ∃ compiled, Compiles settings host generated before compiled ∧
    Workspace.WritesOnly (hintPaths settings hints) compiled after

def WritesArguments (generated : Generated) (hints : HintRegistry)
    (before after : Workspace) : Prop :=
  ∃ hinted, WritesHints settings host generated hints before hinted ∧
    Workspace.WritesOnly [StartupArguments.path settings] hinted after

def Collects (generated : Generated) (hints : HintRegistry) (before after : Workspace) :
    Prop :=
  ∃ targets argued, WritesArguments settings host generated hints before argued ∧
    (∀ target ∈ targets, FileTree.IsCollected settings.classpathDirectory target) ∧
    Workspace.WritesOnly targets argued after

/-- What a run has done when it failed at a stage, or at none, once classes have been
generated. -/
def Reaches (generated : Generated) (hints : HintRegistry) (before after : Workspace) :
    Option Stage → Prop
  | some .configuration => False
  | some .generation => False
  | some .sourceWriting =>
      Workspace.WritesOnly (sourcePaths settings generated) before after ∧
        FileTree.ChangesWithin settings.sources before.files after.files
  | some .compilation =>
      Compiles settings host generated before after ∧
        ∀ artifact ∈ artifactPaths settings hints,
          ∀ source ∈ sourcePaths settings generated, artifact.place ≠ source.place
  | some .hintWriting => WritesHints settings host generated hints before after
  | some .startupArguments => WritesArguments settings host generated hints before after
  | some .collection => Collects settings host generated hints before after
  | none => Collects settings host generated hints before after

/-- What a run for a graph has done when it failed at a stage, or at none. Before classes
are generated it does nothing. -/
def Leaves (graph : Graph) (before after : Workspace) : Option Stage → Prop
  | some .configuration => after = before
  | some .generation => after = before
  | stage =>
      ∃ generated context, graph.generate .empty = (.ok generated, context) ∧
        Reaches settings host generated context.hints before after stage

def failedStage? : Except RunError RunOutcome → Option Stage
  | .ok _ => none
  | .error error => some error.stage

variable {settings host} {generated : Generated} {hints : HintRegistry}
  {before after : Workspace} {result : Except RunError RunOutcome}

theorem reaches_collectStage {workspace : Workspace}
    (argued : WritesArguments settings host generated hints before workspace)
    {outcome : List Path → RunOutcome}
    (ended : collectStage settings outcome workspace = (result, after)) :
    Reaches settings host generated hints before after (failedStage? result) := by
  obtain ⟨targets, collected, writes⟩ := FileTree.writes_collect workspace.files
    settings.classpathDirectory [settings.resources, settings.classes]
  unfold collectStage at ended
  cases done : workspace.files.collect settings.classpathDirectory
      [settings.resources, settings.classes] with
  | mk copied files =>
      rw [done] at writes ended
      have collects : Collects settings host generated hints before { workspace with files } :=
        ⟨targets, workspace, argued, collected, rfl, writes⟩
      cases copied with
      | error fault =>
          cases ended
          exact collects
      | ok targets =>
          cases ended
          exact collects

theorem reaches_argumentsStage {workspace : Workspace}
    (hinted : WritesHints settings host generated hints before workspace)
    {outcome : StartupArguments.Outcome → List Path → RunOutcome}
    (ended : argumentsStage settings outcome workspace = (result, after)) :
    Reaches settings host generated hints before after (failedStage? result) := by
  have writes := StartupArguments.writes_write settings workspace.files
  unfold argumentsStage at ended
  cases done : StartupArguments.write settings workspace.files with
  | mk arguments files =>
      rw [done] at writes ended
      have argued : WritesArguments settings host generated hints before
          { workspace with files } :=
        ⟨workspace, hinted, rfl, writes⟩
      cases arguments with
      | error obstacle =>
          cases ended
          exact argued
      | ok kind =>
          exact reaches_collectStage argued ended

theorem reaches_hintStage {workspace : Workspace}
    (compiled : Compiles settings host generated before workspace)
    {outcome : List Path → StartupArguments.Outcome → List Path → RunOutcome}
    (ended : hintStage settings hints outcome workspace = (result, after)) :
    Reaches settings host generated hints before after (failedStage? result) := by
  have writes := FileTree.writes_writeTexts workspace.files
    ((NativeConfiguration.ofRegistry hints).files.map fun file =>
      (settings.nativeImageDirectory.join ⟨file.name⟩, file.contents))
  rw [List.map_map] at writes
  unfold hintStage FileTree.writeHints at ended
  cases done : workspace.files.writeTexts
      ((NativeConfiguration.ofRegistry hints).files.map fun file =>
        (settings.nativeImageDirectory.join ⟨file.name⟩, file.contents)) with
  | mk paths files =>
      rw [done] at writes ended
      have hinted : WritesHints settings host generated hints before
          { workspace with files } :=
        ⟨workspace, compiled, rfl, writes⟩
      cases paths with
      | error obstacle =>
          cases ended
          exact hinted
      | ok hintFiles =>
          exact reaches_argumentsStage hinted ended

theorem acts_ask (request : CompileRequest) (workspace : Workspace) :
    host.Acts workspace (host.ask request workspace).2 := by
  rw [host.ask_eq]
  exact .asked request

theorem compiles_compile {workspace : Workspace}
    (written : Workspace.WritesOnly (sourcePaths settings generated) before workspace)
    (sources : List Path) :
    Compiles settings host generated before
      (host.compile sources settings.classes workspace).2 := by
  have makes := FileTree.makes_makeDirectories workspace.files settings.classes
  by_cases empty : sources = []
  · rw [empty, host.compile_nil]
    exact ⟨workspace, workspace, written, ⟨rfl, .done⟩, .unasked⟩
  · cases done : workspace.files.makeDirectories settings.classes with
    | mk files there =>
        rw [done] at makes
        have made : Workspace.MakesOnly settings.classes workspace { workspace with files } :=
          ⟨rfl, makes⟩
        cases there with
        | false =>
            rw [host.compile_of_no_directory empty done]
            exact ⟨workspace, _, written, made, .unasked⟩
        | true =>
            rw [host.compile_of_directory empty done]
            exact ⟨workspace, _, written, made, acts_ask _ _⟩

/-- No hints and no startup arguments are written where a source file is. -/
theorem place_ne_of_mem_artifactPaths {artifact source : Path}
    (isArtifact : artifact ∈ artifactPaths settings hints)
    (isSource : source ∈ sourcePaths settings generated) : artifact.place ≠ source.place := by
  obtain ⟨unit, -, ofUnit⟩ := List.mem_map.1 isSource
  rw [← ofUnit]
  rcases List.mem_append.1 isArtifact with hint | arguments
  · obtain ⟨file, member, ofFile⟩ := List.mem_map.1 hint
    rw [← ofFile]
    exact place_artifact_ne_place_source _ _ _
      (NativeConfiguration.name_mem_artifactNames member)
  · rw [List.mem_singleton.1 arguments]
    exact place_artifact_ne_place_source _ _ _ (by decide)

/-- Startup arguments are not written where hints are. -/
theorem place_arguments_ne_place_hint {path : Path}
    (isHint : path ∈ hintPaths settings hints) :
    (StartupArguments.path settings).place ≠ path.place := by
  obtain ⟨-, absent⟩ := Settings.nodup_names_files (NativeConfiguration.ofRegistry hints)
  obtain ⟨file, isFile, same⟩ := List.mem_map.1 isHint
  intro places
  rw [← same, StartupArguments.path,
    Path.place_join_name _ (isFileName_of_mem_artifactNames (by decide)),
    Path.place_join_name _ (isFileName_of_mem_artifactNames
      (NativeConfiguration.name_mem_artifactNames isFile))] at places
  have names := (List.cons.inj (List.append_cancel_left places)).1
  exact absent (List.mem_map.2 ⟨file, isFile, names.symm⟩)

theorem reaches_compileStage {workspace : Workspace}
    (written : Workspace.WritesOnly (sourcePaths settings generated) before workspace)
    (ended : compileStage settings host generated hints workspace = (result, after)) :
    Reaches settings host generated hints before after (failedStage? result) := by
  have compiled : Compiles settings host generated before
      (host.compile (workspace.files.sourcesUnder settings.sources) settings.classes
        workspace).2 :=
    compiles_compile written (workspace.files.sourcesUnder settings.sources)
  unfold compileStage at ended
  cases done : host.compile (workspace.files.sourcesUnder settings.sources) settings.classes
      workspace with
  | mk report files =>
      rw [done] at compiled
      simp only [done] at ended
      cases report with
      | error error =>
          cases ended
          exact ⟨compiled, fun _ isArtifact _ isSource =>
            place_ne_of_mem_artifactPaths isArtifact isSource⟩
      | ok diagnostics =>
          exact reaches_hintStage compiled ended

/-- Source files are written below the directory for sources. -/
theorem changesWithin_of_writes {before after : FileTree}
    (writes : FileTree.Writes (sourcePaths settings generated) before after) :
    FileTree.ChangesWithin settings.sources before after := by
  intro place
  have change := writes.nodeChange place
  generalize before.node? place = was at change ⊢
  generalize after.node? place = becomes at change ⊢
  cases change with
  | kept node =>
      exact .inl rfl
  | made allowed =>
      obtain ⟨path, member, visits⟩ := allowed
      obtain ⟨unit, -, ofUnit⟩ := List.mem_map.1 member
      rw [← ofUnit] at visits
      rcases TypeName.visits_or_prefix_of_visits_join visits with above | below
      · exact .inr (.inr ⟨above, rfl, rfl⟩)
      · exact .inr (.inl below)
  | written allowed free contents =>
      obtain ⟨path, member, isPlace⟩ := allowed
      obtain ⟨unit, -, ofUnit⟩ := List.mem_map.1 member
      rw [isPlace, ← ofUnit, TypeName.place_join_sourcePath]
      exact .inr (.inl (List.prefix_append _ _))

theorem reaches_sourceStage
    (ended : sourceStage settings host generated hints before = (result, after)) :
    Reaches settings host generated hints before after (failedStage? result) := by
  have writes := FileTree.writes_writeTexts before.files (generated.units.map fun unit =>
    (settings.sources.join unit.name.sourcePath, unit.body))
  rw [List.map_map] at writes
  unfold sourceStage FileTree.writeSources at ended
  cases done : before.files.writeTexts (generated.units.map fun unit =>
      (settings.sources.join unit.name.sourcePath, unit.body)) with
  | mk paths files =>
      rw [done] at writes ended
      have written : Workspace.WritesOnly (sourcePaths settings generated) before
          { before with files } :=
        ⟨rfl, writes⟩
      cases paths with
      | error obstacle =>
          cases ended
          exact ⟨written, changesWithin_of_writes writes⟩
      | ok sources =>
          exact reaches_compileStage written ended

/-! ## Runs -/

/-- What a run has done from the writing of sources on, it has done as a whole. -/
theorem leaves_of_reaches {graph : Graph} {context : Context}
    (made : graph.generate .empty = (.ok generated, context)) {stage : Option Stage}
    (reaches : Reaches settings host generated context.hints before after stage) :
    Leaves settings host graph before after stage := by
  cases stage with
  | none =>
      exact ⟨generated, context, made, reaches⟩
  | some stage =>
      cases stage with
      | configuration =>
          exact reaches.elim
      | generation =>
          exact reaches.elim
      | sourceWriting =>
          exact ⟨generated, context, made, reaches⟩
      | compilation =>
          exact ⟨generated, context, made, reaches⟩
      | hintWriting =>
          exact ⟨generated, context, made, reaches⟩
      | startupArguments =>
          exact ⟨generated, context, made, reaches⟩
      | collection =>
          exact ⟨generated, context, made, reaches⟩

/-- The stages of a run leave behind what they may, wherever they stop. -/
theorem leaves_stages {graph : Graph}
    (ended : stages settings host graph before = (result, after)) :
    Leaves settings host graph before after (failedStage? result) := by
  unfold stages at ended
  cases matched : settings.checkApplication graph.application with
  | error mismatch =>
      rw [matched] at ended
      cases ended
      exact rfl
  | ok same =>
      cases made : graph.generate .empty with
      | mk units context =>
          rw [matched, made] at ended
          cases units with
          | error error =>
              cases ended
              exact rfl
          | ok generated =>
              exact leaves_of_reaches made (reaches_sourceStage ended)

theorem stateAfter_eq_done_iff (result : Except RunError RunOutcome) :
    stateAfter result = .done ↔ ∃ outcome, result = .ok outcome := by
  cases result with
  | ok outcome =>
      exact ⟨fun _ => ⟨outcome, rfl⟩, fun _ => rfl⟩
  | error error =>
      constructor
      · intro done
        cases done
      · rintro ⟨outcome, ok⟩
        cases ok

theorem stateAfter_eq_failed_iff (result : Except RunError RunOutcome) (stage : Stage) :
    stateAfter result = .failed stage ↔ ∃ fault, result = .error ⟨stage, fault⟩ := by
  cases result with
  | ok outcome =>
      constructor
      · intro failed
        cases failed
      · rintro ⟨fault, error⟩
        cases error
  | error error =>
      obtain ⟨failed, fault⟩ := error
      constructor
      · intro same
        have stages : failed = stage := RunState.failed.inj same
        exact ⟨fault, by rw [stages]⟩
      · rintro ⟨other, same⟩
        have errors := Except.error.inj same
        rw [errors]
        rfl

theorem stateAfter_ne_idle (result : Except RunError RunOutcome) :
    stateAfter result ≠ .idle := by
  cases result with
  | ok outcome =>
      exact nofun
  | error error =>
      exact nofun

def refusal : Except RunError RunOutcome :=
  .error ⟨.configuration, .used⟩

theorem run_of_not_idle {pipeline : Pipeline} (ended : pipeline.state ≠ .idle)
    (graph : Graph) (workspace : Workspace) :
    pipeline.run graph workspace = (refusal, pipeline, workspace) :=
  if_neg ended

/-- The results of running a pipeline for several graphs, one after the other, with the
pipeline and the workspace in the end. -/
def runAll (pipeline : Pipeline) :
    List Graph → Workspace → List (Except RunError RunOutcome) × Pipeline × Workspace
  | [], workspace => ([], pipeline, workspace)
  | graph :: graphs, workspace =>
      let (result, pipeline, workspace) := pipeline.run graph workspace
      let (results, pipeline, workspace) := runAll pipeline graphs workspace
      (result :: results, pipeline, workspace)

theorem runAll_of_not_idle {pipeline : Pipeline} (ended : pipeline.state ≠ .idle)
    (graphs : List Graph) (workspace : Workspace) :
    pipeline.runAll graphs workspace = (graphs.map fun _ => refusal, pipeline, workspace) := by
  induction graphs with
  | nil =>
      rfl
  | cons graph graphs inductionHypothesis =>
      rw [runAll, run_of_not_idle ended]
      simp only [inductionHypothesis, List.map_cons]

/-- The first run decides how a pipeline stands: it is done exactly if the run gave an
outcome, and failed at a stage exactly if the run gave an error of that stage, and then it
has done only what comes up to that stage. Every later run, wherever it takes place, is
refused and does nothing. -/
theorem first_run_decides (settings : Settings) (host : Host) (graph : Graph)
    (later : List Graph) (before : Workspace) :
    ∃ result state after,
      (start settings host).run graph before = (result, ⟨settings, host, state⟩, after) ∧
      (state = .done ↔ ∃ outcome, result = .ok outcome) ∧
      (∀ stage, state = .failed stage ↔ ∃ fault, result = .error ⟨stage, fault⟩) ∧
      Leaves settings host graph before after (failedStage? result) ∧
      (∀ other workspace, (⟨settings, host, state⟩ : Pipeline).run other workspace =
        (.error ⟨.configuration, .used⟩, ⟨settings, host, state⟩, workspace)) ∧
      (start settings host).runAll (graph :: later) before =
        (result :: later.map fun _ => .error ⟨.configuration, .used⟩,
          ⟨settings, host, state⟩, after) := by
  cases ended : stages settings host graph before with
  | mk result after =>
      have ran : (start settings host).run graph before =
          (result, ⟨settings, host, stateAfter result⟩, after) := by
        have fresh : (start settings host).state = .idle := rfl
        rw [run, if_pos fresh]
        simp only [start, ended]
      have notIdle : (⟨settings, host, stateAfter result⟩ : Pipeline).state ≠ .idle :=
        stateAfter_ne_idle result
      refine ⟨result, stateAfter result, after, ran, stateAfter_eq_done_iff result,
        stateAfter_eq_failed_iff result, leaves_stages ended, run_of_not_idle notIdle, ?_⟩
      rw [runAll, ran]
      simp only [runAll_of_not_idle notIdle, refusal]

end Pipeline

end AheadOfTime
