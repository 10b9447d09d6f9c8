import AheadOfTime.Proofs.Generation.Atomicity
import AheadOfTime.Proofs.Pipeline.Delivery

/-!
# Source files that have been written

The units of a graph have different names, which lead to different places.  So each of
them can be read back when all of them have been written.
-/

namespace AheadOfTime

/-- Types of different names have their source files at different places. -/
theorem TypeName.sourceNames_injective {first second : TypeName}
    (same : first.sourceNames = second.sourceNames) : first = second := by
  obtain ⟨packages, simples⟩ := List.append_inj' same rfl
  have samePackage : first.package = second.package :=
    List.map_injective_iff.2 (fun _ _ texts => Identifier.ext texts) packages
  have sameSimple : first.simple = second.simple :=
    Identifier.ext ((String.append_left_inj ".java").1 (List.cons.inj simples).1)
  rw [TypeName.mk.injEq]
  exact ⟨samePackage, sameSimple⟩

/-- Source files of different names that have been written are there as they are. -/
theorem FileTree.of_writeSources {tree after : FileTree} {units : List Java.SourceUnit}
    {directory : Path} {paths : List Path}
    (distinct : (units.map Java.SourceUnit.name).Nodup)
    (ends : tree.writeSources units directory = (.ok paths, after)) :
    paths = units.map (fun unit => directory.join unit.name.sourcePath) ∧
      ∀ unit ∈ units,
        after.read? (directory.join unit.name.sourcePath) = some unit.body.toUTF8 := by
  have places := distinct.map (f := fun type => (directory.join type.sourcePath).place) (by
    intro first second same
    simp only [TypeName.place_join_sourcePath] at same
    exact TypeName.sourceNames_injective (List.append_cancel_left same))
  have apart : ((units.map fun unit => (directory.join unit.name.sourcePath, unit.body)).map
      fun file => file.1.place).Nodup := by
    rw [List.map_map] at places ⊢
    exact places
  rw [writeSources] at ends
  obtain ⟨same, reads⟩ := of_writeTexts apart ends
  constructor
  · rw [same, List.map_map]
    rfl
  · intro unit member
    exact reads (directory.join unit.name.sourcePath, unit.body)
      (List.mem_map.2 ⟨unit, member, rfl⟩)

theorem Graph.nodup_names_units (graph : Graph) (context : Context) {generated : Generated}
    {after : Context} (accepted : graph.generate context = (.ok generated, after)) :
    (generated.units.map Java.SourceUnit.name).Nodup := by
  obtain ⟨-, rfl, -⟩ := graph.of_generate_eq_ok context accepted
  have unissued := (graph.fresh_helperName context).unissued
  rw [names_units_generatedIn, unitNames]
  cases graph.steps.any Step.isHidden with
  | true =>
      refine List.nodup_cons.2 ⟨fun same => unissued ?_, List.nodup_singleton _⟩
      rw [← List.mem_singleton.1 same]
      exact List.mem_append_right _ List.mem_cons_self
  | false =>
      exact List.nodup_singleton _

namespace Pipeline

variable {settings : Settings} {host : Host} {graph : Graph} {before after : Workspace}
  {outcome : RunOutcome}

/-- The sources of a run are written below the directory for sources, as they have been
generated. -/
theorem Trace.read?_sources (trace : Trace settings host graph before outcome after) :
    trace.sourcePaths = Pipeline.sourcePaths settings outcome.generated ∧
      ∀ unit ∈ outcome.generated.units,
        trace.sourced.read? (settings.sources.join unit.name.sourcePath) =
          some unit.body.toUTF8 :=
  FileTree.of_writeSources (graph.nodup_names_units .empty trace.generates) trace.writesSources

/-- A run for the application of its settings gets to generation. -/
theorem failedStage?_ne_configuration {result : Except RunError RunOutcome}
    (matched : settings.checkApplication graph.application = .ok ())
    (ended : stages settings host graph before = (result, after)) :
    failedStage? result ≠ some .configuration := by
  intro failed
  unfold stages at ended
  cases made : graph.generate .empty with
  | mk units context =>
      rw [matched, made] at ended
      cases units with
      | error error =>
          cases ended
          cases failed
      | ok generated =>
          have reaches := reaches_sourceStage ended
          rw [failed] at reaches
          exact reaches

end Pipeline

end AheadOfTime
