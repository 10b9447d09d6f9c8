import AheadOfTime.Pipeline
import AheadOfTime.Proofs.FileTree.Changes

/-!
# Runs that go through

A run goes through exactly if every stage of it does.  What the stages leave behind, one
after the other, is the trace of the run.
-/

namespace AheadOfTime

/-- What a run that goes through does, stage by stage: the trees and the workspace that its
stages leave behind, with the files that are written and copied. -/
structure Pipeline.Trace (settings : Settings) (host : Host) (graph : Graph)
    (before : Workspace) (outcome : RunOutcome) (after : Workspace) where
  context : Context
  sourcePaths : List Path
  sourced : FileTree
  compiled : Workspace
  hinted : FileTree
  prepared : FileTree
  copied : List Path
  overlaid : FileTree
  collected : List Path
  matched : settings.application = graph.application
  generates : graph.generate .empty = (.ok outcome.generated, context)
  hints : outcome.hints = context.hints
  writesSources : before.files.writeSources outcome.generated.units settings.sources =
    (.ok sourcePaths, sourced)
  findsSources : outcome.sources = sourced.sourcesUnder settings.sources
  compiles : host.compile outcome.sources settings.classes { before with files := sourced } =
    (.ok outcome.diagnostics, compiled)
  writesHints : compiled.files.writeHints outcome.hints settings.nativeImageDirectory =
    (.ok outcome.hintFiles, hinted)
  writesArguments : StartupArguments.write settings hinted =
    (.ok outcome.startupArguments, prepared)
  copiesResources : prepared.copyFiles
    (prepared.collectionPlan settings.resources settings.classpathDirectory) =
      (.ok copied, overlaid)
  copiesClasses : overlaid.copyFiles
    (overlaid.collectionPlan settings.classes settings.classpathDirectory) =
      (.ok collected, after.files)
  collects : outcome.collected = copied ++ collected
  requests : after.requests = compiled.requests

/-- Two directories are collected by copying the files of the first one, and then the files
that the second one has by then. -/
theorem FileTree.collect_two_eq_ok_iff {tree after : FileTree}
    {destination first second : Path} {targets : List Path} :
    tree.collect destination [first, second] = (.ok targets, after) ↔
      ∃ copied overlaid collected,
        tree.copyFiles (tree.collectionPlan first destination) = (.ok copied, overlaid) ∧
        overlaid.copyFiles (overlaid.collectionPlan second destination) =
          (.ok collected, after) ∧
        targets = copied ++ collected := by
  rw [collect_cons_eq_ok_iff]
  constructor
  · rintro ⟨copied, overlaid, others, copies, later, rfl⟩
    obtain ⟨collected, final, nothing, copiesLater, ends, rfl⟩ := collect_cons_eq_ok_iff.1 later
    cases ends
    exact ⟨copied, overlaid, collected, copies, copiesLater,
      congrArg (copied ++ ·) (List.append_nil collected)⟩
  · rintro ⟨copied, overlaid, collected, copies, later, rfl⟩
    exact ⟨copied, overlaid, collected, copies,
      collect_cons_eq_ok_iff.2 ⟨collected, after, [], later, rfl, (List.append_nil _).symm⟩, rfl⟩

namespace Pipeline

variable {settings : Settings} {host : Host} {graph : Graph} {generated : Generated}
  {hints : HintRegistry} {before after : Workspace} {outcome : RunOutcome}

theorem of_collectStage_ok {make : List Path → RunOutcome}
    (ends : collectStage settings make before = (.ok outcome, after)) :
    ∃ targets, before.files.collect settings.classpathDirectory
        [settings.resources, settings.classes] = (.ok targets, after.files) ∧
      outcome = make targets ∧ after.requests = before.requests := by
  rw [collectStage] at ends
  cases collects : before.files.collect settings.classpathDirectory
      [settings.resources, settings.classes] with
  | mk result files =>
      rw [collects] at ends
      cases result with
      | error fault =>
          cases ends
      | ok targets =>
          cases ends
          exact ⟨targets, rfl, rfl, rfl⟩

theorem of_argumentsStage_ok {make : StartupArguments.Outcome → List Path → RunOutcome}
    (ends : argumentsStage settings make before = (.ok outcome, after)) :
    ∃ arguments prepared, StartupArguments.write settings before.files =
        (.ok arguments, prepared) ∧
      collectStage settings (make arguments) { before with files := prepared } =
        (.ok outcome, after) := by
  unfold argumentsStage at ends
  cases writes : StartupArguments.write settings before.files with
  | mk result files =>
      rw [writes] at ends
      cases result with
      | error obstacle =>
          cases ends
      | ok arguments =>
          exact ⟨arguments, files, rfl, ends⟩

theorem of_hintStage_ok
    {make : List Path → StartupArguments.Outcome → List Path → RunOutcome}
    (ends : hintStage settings hints make before = (.ok outcome, after)) :
    ∃ hintFiles hinted, before.files.writeHints hints settings.nativeImageDirectory =
        (.ok hintFiles, hinted) ∧
      argumentsStage settings (make hintFiles) { before with files := hinted } =
        (.ok outcome, after) := by
  unfold hintStage at ends
  cases writes : before.files.writeHints hints settings.nativeImageDirectory with
  | mk result files =>
      rw [writes] at ends
      cases result with
      | error obstacle =>
          cases ends
      | ok hintFiles =>
          exact ⟨hintFiles, files, rfl, ends⟩

theorem of_compileStage_ok
    (ends : compileStage settings host generated hints before = (.ok outcome, after)) :
    ∃ diagnostics compiled, host.compile (before.files.sourcesUnder settings.sources)
        settings.classes before = (.ok diagnostics, compiled) ∧
      hintStage settings hints (RunOutcome.mk generated hints
        (before.files.sourcesUnder settings.sources) diagnostics) compiled =
        (.ok outcome, after) := by
  unfold compileStage at ends
  cases compiles : host.compile (before.files.sourcesUnder settings.sources)
      settings.classes before with
  | mk result workspace =>
      simp only [compiles] at ends
      cases result with
      | error fault =>
          cases ends
      | ok diagnostics =>
          exact ⟨diagnostics, workspace, rfl, ends⟩

theorem of_sourceStage_ok
    (ends : sourceStage settings host generated hints before = (.ok outcome, after)) :
    ∃ paths sourced, before.files.writeSources generated.units settings.sources =
        (.ok paths, sourced) ∧
      compileStage settings host generated hints { before with files := sourced } =
        (.ok outcome, after) := by
  unfold sourceStage at ends
  cases writes : before.files.writeSources generated.units settings.sources with
  | mk result files =>
      rw [writes] at ends
      cases result with
      | error obstacle =>
          cases ends
      | ok paths =>
          exact ⟨paths, files, rfl, ends⟩

theorem of_stages_ok (ends : stages settings host graph before = (.ok outcome, after)) :
    settings.application = graph.application ∧
      ∃ generated context, graph.generate .empty = (.ok generated, context) ∧
        sourceStage settings host generated context.hints before = (.ok outcome, after) := by
  rw [stages, Settings.checkApplication] at ends
  by_cases matched : settings.application = graph.application
  · rw [if_pos matched] at ends
    refine ⟨matched, ?_⟩
    cases generates : graph.generate .empty with
    | mk result context =>
        rw [generates] at ends
        cases result with
        | error error =>
            cases ends
        | ok generated =>
            exact ⟨generated, context, rfl, ends⟩
  · rw [if_neg matched] at ends
    cases ends

/-- A run goes through exactly if it has a trace. -/
theorem stages_eq_ok_iff :
    stages settings host graph before = (.ok outcome, after) ↔
      Nonempty (Trace settings host graph before outcome after) := by
  constructor
  · intro ends
    obtain ⟨matched, generated, context, generates, ends⟩ := of_stages_ok ends
    obtain ⟨paths, sourced, writesSources, ends⟩ := of_sourceStage_ok ends
    obtain ⟨diagnostics, compiled, compiles, ends⟩ := of_compileStage_ok ends
    obtain ⟨hintFiles, hinted, writesHints, ends⟩ := of_hintStage_ok ends
    obtain ⟨arguments, prepared, writesArguments, ends⟩ := of_argumentsStage_ok ends
    obtain ⟨targets, collects, made, requests⟩ := of_collectStage_ok ends
    obtain ⟨copied, overlaid, collected, copies, later, whole⟩ :=
      FileTree.collect_two_eq_ok_iff.1 collects
    subst made
    exact ⟨⟨context, paths, sourced, compiled, hinted, prepared, copied, overlaid, collected,
      matched, generates, rfl, writesSources, rfl, compiles, writesHints, writesArguments,
      copies, later, whole, requests⟩⟩
  · rintro ⟨context, sourcePaths, sourced, compiled, hinted, prepared, copied, overlaid,
      collected, matched, generates, sameHints, writesSources, sameSources, compiles,
      writesHints, writesArguments, copiesResources, copiesClasses, whole, sameRequests⟩
    obtain ⟨generated, hints, sources, diagnostics, hintFiles, arguments, targets⟩ := outcome
    obtain ⟨files, requests⟩ := after
    simp only at sameHints sameSources sameRequests
    subst sameHints sameSources sameRequests
    have collects := FileTree.collect_two_eq_ok_iff.2
      ⟨copied, overlaid, collected, copiesResources, copiesClasses, whole⟩
    rw [stages, Settings.checkApplication, if_pos matched, generates]
    show sourceStage settings host generated context.hints before = _
    unfold sourceStage
    rw [writesSources]
    show compileStage settings host generated context.hints { before with files := sourced } = _
    unfold compileStage
    simp only
    rw [compiles]
    show hintStage settings context.hints _ compiled = _
    unfold hintStage
    rw [writesHints]
    show argumentsStage settings _ { compiled with files := hinted } = _
    unfold argumentsStage
    rw [writesArguments]
    show collectStage settings _ { compiled with files := prepared } = _
    rw [collectStage, collects]

/-- A run has one trace only. -/
theorem Trace.unique (first second : Trace settings host graph before outcome after) :
    first = second := by
  obtain ⟨context, sourcePaths, sourced, compiled, hinted, prepared, copied, overlaid,
    collected, matched, generates, hints, writesSources, findsSources, compiles, writesHints,
    writesArguments, copiesResources, copiesClasses, collects, requests⟩ := first
  obtain ⟨otherContext, otherPaths, otherSourced, otherCompiled, otherHinted, otherPrepared,
    otherCopied, otherOverlaid, otherCollected, _, generatesToo, _, writesSourcesToo, _,
    compilesToo, writesHintsToo, writesArgumentsToo, copiesResourcesToo, copiesClassesToo,
    _, _⟩ := second
  rw [generates] at generatesToo
  cases generatesToo
  rw [writesSources] at writesSourcesToo
  cases writesSourcesToo
  rw [compiles] at compilesToo
  cases compilesToo
  rw [writesHints] at writesHintsToo
  cases writesHintsToo
  rw [writesArguments] at writesArgumentsToo
  cases writesArgumentsToo
  rw [copiesResources] at copiesResourcesToo
  cases copiesResourcesToo
  rw [copiesClasses] at copiesClassesToo
  cases copiesClassesToo
  rfl

theorem run_eq_ok_iff {pipeline : Pipeline} :
    (start settings host).run graph before = (.ok outcome, pipeline, after) ↔
      pipeline = ⟨settings, host, .done⟩ ∧
        Nonempty (Trace settings host graph before outcome after) := by
  have fresh : (start settings host).state = .idle := rfl
  rw [← stages_eq_ok_iff, run, if_pos fresh]
  simp only [start]
  cases stages settings host graph before with
  | mk result workspace =>
      simp only [Prod.mk.injEq]
      constructor
      · rintro ⟨rfl, rfl, rfl⟩
        exact ⟨rfl, rfl, rfl⟩
      · rintro ⟨rfl, rfl, rfl⟩
        exact ⟨rfl, rfl, rfl⟩

end Pipeline

end AheadOfTime
