import AheadOfTime.Proofs.Generation.Outcome

/-!
# Hints and names of a generation

A generation that fails leaves the hints alone; one that succeeds registers every use of
a hidden member, then the contributed hints, then the entry point.  Names are issued for
the initializer and, from the first hidden step on, for the helper.
-/

namespace AheadOfTime.Graph

/-- The names of the units that a generation gets to: the helper is one of them when one
of the steps is hidden. -/
def unitNames (main helper : TypeName) (steps : List Step) : List TypeName :=
  main :: if steps.any Step.isHidden then [helper] else []

variable (graph : Graph) (context : Context)

theorem fresh_initializerName :
    IssuedNames.Fresh context.names.names graph.application Draft.initializerFeature
      (graph.initializerName context) :=
  context.names.fresh_next graph.application Draft.isFeature_initializerFeature

theorem names_startIn :
    (graph.startIn context).names.names =
      context.names.names ++ [graph.initializerName context] :=
  context.names.names_afterNext graph.application Draft.isFeature_initializerFeature

theorem fresh_helperName :
    IssuedNames.Fresh (context.names.names ++ [graph.initializerName context])
      graph.application Draft.helperFeature (graph.startIn context).helperName := by
  rw [← names_startIn]
  exact (graph.startIn context).names.fresh_next graph.application
    Draft.isFeature_helperFeature

theorem issued_draftAfter (steps : List Step) :
    (graph.draftAfter context steps).names.names =
      context.names.names ++
        unitNames (graph.initializerName context) (graph.startIn context).helperName steps := by
  have helperIssued :
      (graph.startIn context).helperNames.names =
        (graph.startIn context).names.names ++ [(graph.startIn context).helperName] :=
    (graph.startIn context).names.names_afterNext graph.application
      Draft.isFeature_helperFeature
  rw [names_draftAfter, unitNames]
  cases steps.any Step.isHidden with
  | true =>
      rw [if_pos rfl, if_pos rfl, helperIssued, names_startIn, List.append_assoc]
      rfl
  | false =>
      exact graph.names_startIn context

theorem names_units_generatedIn :
    (graph.generatedIn context).units.map Java.SourceUnit.name =
      unitNames (graph.initializerName context) (graph.startIn context).helperName
        graph.steps := by
  have helper := graph.helper_generatedIn context
  have units :
      (graph.generatedIn context).units.map Java.SourceUnit.name =
        graph.initializerName context ::
          ((graph.generatedIn context).helper.map Java.Helper.name).toList := by
    rw [Generated.units]
    cases (graph.generatedIn context).helper <;> rfl
  rw [units, helper, unitNames]
  cases graph.steps.any Step.isHidden <;> rfl

/-- A failed generation leaves the hints as they were and issues the names that it got
to; a successful one registers what it announced, in order, and issues the names of its
units. -/
theorem generate_is_atomic_and_issues_exactly_unit_names :
    ∃ main helper,
      IssuedNames.Fresh context.names.names graph.application Draft.initializerFeature main ∧
      IssuedNames.Fresh (context.names.names ++ [main]) graph.application
        Draft.helperFeature helper ∧
      match graph.generate context with
      | (.error error, after) =>
          graph.FirstFault error ∧
          after.hints = context.hints ∧
          after.names.names =
            context.names.names ++ unitNames main helper (error.stepsBefore graph.steps)
      | (.ok generated, after) =>
          (∃ contributed : List Registration,
            graph.contributions.map Contribution.registration = contributed.map .ok ∧
            after.hints =
              context.hints.registerAll
                (graph.accesses.map (Access.registration graph.application) ++ contributed ++
                  [entryPoint graph.application main])) ∧
          graph.accesses.length = graph.steps.countP Step.isHidden ∧
          generated.units.map Java.SourceUnit.name = unitNames main helper graph.steps ∧
          after.names.names =
            context.names.names ++ generated.units.map Java.SourceUnit.name := by
  refine ⟨graph.initializerName context, (graph.startIn context).helperName,
    graph.fresh_initializerName context, graph.fresh_helperName context, ?_⟩
  rcases graph.wellFormed_or_firstFault with wellFormed | ⟨error, first⟩
  · obtain ⟨contributed, sameContributions, outcome⟩ :=
      graph.generate_of_wellFormed context wellFormed
    rw [outcome]
    refine ⟨⟨contributed, sameContributions, rfl⟩, ?_, ?_, ?_⟩
    · exact Scope.length_accesses (graph.hasWellFormedSteps_iff.1 wellFormed.steps)
    · exact graph.names_units_generatedIn context
    · rw [names_units_generatedIn]
      exact graph.issued_draftAfter context graph.steps
  · rw [graph.generate_of_firstFault context first]
    exact ⟨first, rfl, graph.issued_draftAfter context _⟩

end AheadOfTime.Graph
