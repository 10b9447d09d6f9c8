import AheadOfTime.Proofs.Generation.Contributions
import AheadOfTime.Proofs.Generation.Run

/-!
# Outcomes of generation

Whether a graph can be generated does not depend on the context: it can when it is
well-formed, and else its first fault is reported.  The result and the context
afterwards are given in both cases.
-/

namespace AheadOfTime

open Java

/-- The errors that name the first fault of a graph: that of the first step that is not
well-formed, or else that of the first contribution that is not. -/
inductive Graph.FirstFault (graph : Graph) : GenerationError → Prop where
  | step {earlier later : List Step} {step : Step} {fault : StepFault}
      (parts : graph.steps = earlier ++ step :: later)
      (admitted : Scope.Admits graph.application [] earlier)
      (head : (step.faults graph.application (.of earlier)).head? = some fault) :
      FirstFault graph (.step earlier.length step fault)
  | hint {earlier later : List Contribution} {contribution : Contribution} {fault : HintFault}
      (steps : graph.HasWellFormedSteps)
      (parts : graph.contributions = earlier ++ contribution :: later)
      (wellFormed : ∀ before ∈ earlier, before.WellFormed)
      (head : contribution.faults.head? = some fault) :
      FirstFault graph (.hint earlier.length fault)

/-- The steps that come before what an error is about; all of them when it is not
about a step. -/
def GenerationError.stepsBefore (steps : List Step) : GenerationError → List Step
  | .step index _ _ => steps.take index
  | .hint .. | .name _ => steps

namespace Graph

variable (graph : Graph) (context : Context)

theorem wellFormed_or_firstFault :
    graph.WellFormed ∨ ∃ error, graph.FirstFault error := by
  rcases Scope.admits_or_fault graph.application [] graph.steps with admitted | failed
  · have steps : graph.HasWellFormedSteps := graph.hasWellFormedSteps_iff.2 admitted
    rcases Contribution.wellFormed_or_fault graph.contributions with fine | failed
    · exact Or.inl ⟨steps, fine⟩
    · obtain ⟨earlier, contribution, later, fault, parts, wellFormed, head⟩ := failed
      exact Or.inr ⟨_, .hint steps parts wellFormed head⟩
  · obtain ⟨earlier, step, later, fault, parts, admitted, head⟩ := failed
    exact Or.inr ⟨_, .step parts admitted head⟩

def initializerName : TypeName :=
  context.names.next graph.application Draft.initializerFeature

def startIn : Draft :=
  Draft.start graph.application (graph.initializerName context) graph.steps
    (context.names.afterNext graph.application Draft.initializerFeature)

def draftAfter (steps : List Step) : Draft :=
  (graph.startIn context).afterAll steps

theorem settled_startIn : (graph.startIn context).Settled := by
  intro name uses found
  cases found

def generatedIn : Generated :=
  let draft := graph.draftAfter context graph.steps
  ⟨⟨graph.application, graph.initializerName context, draft.imports, draft.statements⟩,
    draft.helper.map fun (name, uses) => ⟨name, uses, draft.imports⟩⟩

/-- The registrations of a generation: the accesses of the hidden steps, then the
contributed hints, then the entry point. -/
def registrationsIn (contributed : List Registration) : List Registration :=
  graph.accesses.map (Access.registration graph.application) ++ contributed ++
    [entryPoint graph.application (graph.initializerName context)]

theorem addSteps_of_hasWellFormedSteps (steps : graph.HasWellFormedSteps) :
    (graph.startIn context).addSteps 0 graph.steps =
      (graph.draftAfter context graph.steps, none) :=
  Draft.addSteps_of_admits (graph.settled_startIn context)
    (graph.hasWellFormedSteps_iff.1 steps) 0

theorem generate_of_wellFormed (wellFormed : graph.WellFormed) :
    ∃ contributed : List Registration,
      graph.contributions.map Contribution.registration = contributed.map .ok ∧
      graph.generate context =
        (.ok (graph.generatedIn context),
          ⟨(graph.draftAfter context graph.steps).names,
            context.hints.registerAll (graph.registrationsIn context contributed)⟩) := by
  obtain ⟨contributed, registered, sameContributions⟩ :=
    Contribution.registrations_of_wellFormed wellFormed.contributions 0
  have registrations :
      (graph.draftAfter context graph.steps).registrations =
        graph.accesses.map (Access.registration graph.application) := by
    rw [draftAfter, Draft.registrations_afterAll]
    rfl
  have run := graph.addSteps_of_hasWellFormedSteps context wellFormed.steps
  rw [startIn, initializerName] at run
  refine ⟨contributed, sameContributions, ?_⟩
  unfold generate
  simp only [context.names.issue_eq_next graph.application Draft.isFeature_initializerFeature,
    run, registered, HintRegistry.merge_registerAll_empty, registrations]
  rfl

theorem generate_of_firstFault {error : GenerationError} (first : graph.FirstFault error) :
    graph.generate context =
      (.error error,
        { context with
          names := (graph.draftAfter context (error.stepsBefore graph.steps)).names }) := by
  unfold generate
  simp only [context.names.issue_eq_next graph.application Draft.isFeature_initializerFeature]
  cases first with
  | step parts admitted head =>
      rename_i earlier later step fault
      have before : graph.steps.take earlier.length = earlier := by
        rw [parts, List.take_left]
      have run := Draft.addSteps_of_fault (graph.settled_startIn context) admitted head later 0
      rw [← parts, Nat.zero_add, startIn, initializerName] at run
      rw [GenerationError.stepsBefore, before]
      simp only [run]
      rfl
  | hint steps parts wellFormed head =>
      rename_i earlier later contribution fault
      have run := graph.addSteps_of_hasWellFormedSteps context steps
      rw [startIn, initializerName] at run
      have refused := Contribution.registrations_of_fault wellFormed head later 0
      rw [← parts, Nat.zero_add] at refused
      simp only [run, refused]
      rfl

/-- What an accepted graph and its outcome are. -/
theorem of_generate_eq_ok {generated : Generated} {after : Context}
    (accepted : graph.generate context = (.ok generated, after)) :
    graph.WellFormed ∧ generated = graph.generatedIn context ∧
      ∃ contributed : List Registration,
        graph.contributions.map Contribution.registration = contributed.map .ok ∧
        after =
          ⟨(graph.draftAfter context graph.steps).names,
            context.hints.registerAll (graph.registrationsIn context contributed)⟩ := by
  rcases graph.wellFormed_or_firstFault with wellFormed | ⟨error, first⟩
  · obtain ⟨contributed, sameContributions, outcome⟩ :=
      graph.generate_of_wellFormed context wellFormed
    rw [outcome] at accepted
    obtain ⟨sameResult, sameContext⟩ := Prod.mk.inj accepted
    exact ⟨wellFormed, (Except.ok.inj sameResult).symm, contributed, sameContributions,
      sameContext.symm⟩
  · rw [graph.generate_of_firstFault context first] at accepted
    cases accepted

theorem names_draftAfter (steps : List Step) :
    (graph.draftAfter context steps).names =
      if steps.any Step.isHidden then
        (graph.startIn context).helperNames
      else
        (graph.startIn context).names :=
  (graph.startIn context).names_afterAll steps

/-- The helper is generated when a step is hidden. -/
theorem helper_generatedIn :
    (graph.generatedIn context).helper.map Helper.name =
      if graph.steps.any Step.isHidden then some (graph.startIn context).helperName else none := by
  refine Eq.trans ?_ ((graph.startIn context).helper_afterAll graph.steps)
  rw [generatedIn, draftAfter, Option.map_map]
  rfl

/-- A graph whose steps define a literal and a hidden object, and set, call and assign
members of the object. -/
def cacheGraph : Graph where
  application := ⟨[{ text := "com" }, { text := "acme" }], { text := "App" }⟩
  steps :=
    [.literal "limit" (.integer 8),
      .creation ⟨"cache", ⟨[{ text := "com" }, { text := "acme" }], { text := "Cache" }⟩,
        [.reference "limit"], none, .hidden⟩,
      .property ⟨"cache", "size", .reference "limit", .setter, none, .hidden⟩,
      .property ⟨"cache", "label", .value (.text "a\nb"), .field, none, .exposed⟩,
      .callback "cache" "start" .hidden]
  contributions := [.resource "cache.txt" none]

theorem cacheGraph_wellFormed : cacheGraph.WellFormed where
  steps := cacheGraph.hasWellFormedSteps_iff.2 (by decide +kernel)
  contributions := by decide +kernel

end Graph

end AheadOfTime
