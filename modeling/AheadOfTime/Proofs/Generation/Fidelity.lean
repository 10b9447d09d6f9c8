import AheadOfTime.Proofs.Generation.Outcome
import AheadOfTime.Proofs.Generation.Replayed
import AheadOfTime.Proofs.Generation.Variables
import AheadOfTime.Proofs.Java.Fragments.Statement
import AheadOfTime.Proofs.Java.SourceUnit

/-!
# The initializer replays the graph

The text of a generated initializer is, line by line, the statements that replay the
steps of the graph in order.  Every bean has a variable of its own, which is declared
once and before it is used.
-/

namespace AheadOfTime

open Java

/-- What it means for an initializer to replay steps, written with a naming. -/
structure Java.Initializer.Replays (initializer : Initializer) (naming : Naming)
    (steps : List Step) : Prop where
  distinct : ∀ first ∈ definedBeans steps, ∀ second ∈ definedBeans steps,
    naming.variableOf first = naming.variableOf second → first = second
  identifiers : ∀ bean ∈ definedBeans steps, isIdentifier (naming.variableOf bean) = true
  unreserved : ∀ bean ∈ definedBeans steps,
    naming.variableOf bean ≠ "context" ∧ naming.variableOf bean ≠ "beanFactory"
  lines :
    Text.split '\n' initializer.source.body.toList =
      (initializer.openingLines ++
        initializer.factoryLine ::
          (naming.replay [] steps).map (fun statement => "\t\t" ++ statement.text) ++
        Initializer.closingLines ++ [""]).map String.toList
  written : ∀ statement ∈ naming.replay [] steps, statement.IsWrittenAs statement.text
  complete : ∀ earlier step later, steps = earlier ++ step :: later → ∀ anyNaming : Naming,
    (step.statements anyNaming (.of earlier)).length = if step.defined?.isSome then 2 else 1
  declarations :
    (naming.replay [] steps).filterMap Statement.declared? =
      (definedBeans steps).map naming.variableOf
  declaredOnce : ((naming.replay [] steps).filterMap Statement.declared?).Nodup
  declaredFirst : ∀ before statement after,
    naming.replay [] steps = before ++ statement :: after →
      ∀ name ∈ statement.used, name ∈ before.filterMap Statement.declared?

namespace Graph

variable (graph : Graph) (context : Context)

theorem allocated_draftAfter (steps : List Step) :
    (graph.draftAfter context steps).Allocated :=
  Draft.allocated_afterAll (Draft.allocated_start _ _ _ _) steps

/-- How the statements of a graph are written in a context. -/
def namingIn : Naming :=
  (graph.startIn context).namingThrough graph.steps

theorem statements_generatedIn (wellFormed : graph.HasWellFormedSteps) :
    (graph.generatedIn context).initializer.statements =
      (graph.namingIn context).replay [] graph.steps :=
  Draft.statements_afterAll (graph.hasWellFormedSteps_iff.1 wellFormed)

theorem has_draftAfter {bean : String} (member : bean ∈ definedBeans graph.steps) :
    (graph.draftAfter context graph.steps).scope.Has bean := by
  have scope : (graph.draftAfter context graph.steps).scope = Scope.of graph.steps :=
    (graph.startIn context).scope_afterAll graph.steps
  rw [scope]
  exact (Scope.has_of_iff graph.steps bean).2 member

theorem isIdentifier_variableOf {bean : String} (member : bean ∈ definedBeans graph.steps) :
    isIdentifier ((graph.namingIn context).variableOf bean) = true :=
  (graph.allocated_draftAfter context graph.steps).isIdentifier_variableIn
    (graph.has_draftAfter context member)

/-- The names in the statements of a generated initializer are plain. -/
theorem plainNames_generatedIn (wellFormed : graph.HasWellFormedSteps) :
    ∀ statement ∈ (graph.generatedIn context).initializer.statements,
      statement.PlainNames := by
  rw [graph.statements_generatedIn context wellFormed]
  refine Naming.plainNames_replay (graph.hasWellFormedSteps_iff.1 wellFormed) ?_
  intro bean known
  have defined := (Scope.has_of_iff graph.steps bean).1 known
  exact .of_isIdentifier (graph.isIdentifier_variableOf context defined)

theorem replays_generatedIn (wellFormed : graph.HasWellFormedSteps) :
    (graph.generatedIn context).initializer.Replays (graph.namingIn context) graph.steps := by
  have admitted : Scope.Admits graph.application [] graph.steps :=
    graph.hasWellFormedSteps_iff.1 wellFormed
  have allocated := graph.allocated_draftAfter context graph.steps
  have defined : ∀ bean ∈ definedBeans graph.steps,
      (graph.draftAfter context graph.steps).scope.Has bean :=
    fun bean member => graph.has_draftAfter context member
  have distinct : ∀ first ∈ definedBeans graph.steps, ∀ second ∈ definedBeans graph.steps,
      (graph.namingIn context).variableOf first = (graph.namingIn context).variableOf second →
        first = second :=
    fun first firstMember second secondMember =>
      allocated.variableIn_injective (defined first firstMember) (defined second secondMember)
  have declarations := (graph.namingIn context).declared_replay [] graph.steps
  refine ⟨distinct, fun bean member => graph.isIdentifier_variableOf context member, ?_, ?_,
    fun statement _ => statement.isWrittenAs_text, ?_, declarations, ?_, ?_⟩
  · intro bean member
    have free := allocated.variableIn_not_mem_reserved (defined bean member)
    simp only [Draft.reservedLocals, List.mem_cons, List.not_mem_nil, or_false, not_or] at free
    exact free
  · have single : ∀ statement ∈ (graph.generatedIn context).initializer.statements,
        OneLine statement.text := fun statement member =>
      Statement.oneLine (graph.plainNames_generatedIn context wellFormed statement member)
    have text := (graph.generatedIn context).initializer.split_body single
    rw [graph.statements_generatedIn context wellFormed] at text
    exact text
  · intro earlier step later parts anyNaming
    exact Step.length_statements (wellFormed earlier step later parts) anyNaming
  · rw [declarations]
    refine List.Nodup.map_on ?_ (Scope.nodup_definedBeans admitted).1
    exact fun first firstMember second secondMember same =>
      distinct first firstMember second secondMember same
  · intro before statement after parts name uses
    have wellScoped : Statement.WellScoped [] ((graph.namingIn context).replay [] graph.steps) :=
      Naming.wellScoped_replay admitted fun bean known => by cases known
    rw [parts] at wellScoped
    exact (wellScoped.used_mem uses).resolve_right List.not_mem_nil

/-- An initializer that is generated replays the steps of its graph: line by line, in
order, each bean with a variable of its own. -/
theorem generated_initializer_replays_graph {generated : Generated} {after : Context}
    (accepted : graph.generate context = (.ok generated, after)) :
    ∃ naming : Naming,
      naming.imports = Draft.importsFor generated.initializer.name graph.steps ∧
      generated.helper.map Helper.name =
        (if graph.steps.any Step.isHidden then some naming.helper else none) ∧
      generated.initializer.Replays naming graph.steps := by
  obtain ⟨wellFormed, rfl, -⟩ := graph.of_generate_eq_ok context accepted
  exact ⟨graph.namingIn context, rfl, graph.helper_generatedIn context,
    graph.replays_generatedIn context wellFormed.steps⟩

theorem cacheGraph_initializer_replays :
    ∃ generated after naming, cacheGraph.generate .empty = (.ok generated, after) ∧
      generated.initializer.Replays naming cacheGraph.steps := by
  obtain ⟨contributed, -, accepted⟩ :=
    cacheGraph.generate_of_wellFormed .empty cacheGraph_wellFormed
  obtain ⟨naming, -, -, replays⟩ :=
    generated_initializer_replays_graph cacheGraph .empty accepted
  exact ⟨_, _, naming, accepted, replays⟩

end Graph

end AheadOfTime
