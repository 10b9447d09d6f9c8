import AheadOfTime.Proofs.Generation.Atomicity
import AheadOfTime.Proofs.TypeName.Requests

/-!
# Names of a context

A generation asks a context for the names of its units, whether it succeeds or not.  So
whatever is done with a context, its issued names are those of a history of requests.
-/

namespace AheadOfTime

open IssuedNames (Request)

namespace Graph

/-- The steps that a generation gets to, before it fails if it does. -/
def reachedSteps (graph : Graph) : List Step :=
  match (graph.generate .empty).1 with
  | .ok _ => graph.steps
  | .error error => error.stepsBefore graph.steps

/-- What a generation asks for: a name for the initializer, and one for the helper from the
first hidden step on. -/
def requests (graph : Graph) : List Request :=
  ⟨graph.application, Draft.initializerFeature⟩ ::
    if graph.reachedSteps.any Step.isHidden then
      [⟨graph.application, Draft.helperFeature⟩]
    else
      []

variable (graph : Graph) (context : Context)

theorem serve_requests :
    context.names.serve graph.requests =
      ((unitNames (graph.initializerName context) (graph.startIn context).helperName
          graph.reachedSteps).map .ok,
        (graph.draftAfter context graph.reachedSteps).names) := by
  have main : context.names.answer ⟨graph.application, Draft.initializerFeature⟩ =
      (.ok (graph.initializerName context), (graph.startIn context).names) :=
    context.names.issue_eq_next graph.application Draft.isFeature_initializerFeature
  have helper : (graph.startIn context).names.answer ⟨graph.application, Draft.helperFeature⟩ =
      (.ok (graph.startIn context).helperName, (graph.startIn context).helperNames) :=
    (graph.startIn context).names.issue_eq_next graph.application Draft.isFeature_helperFeature
  rw [requests, unitNames, names_draftAfter]
  cases graph.reachedSteps.any Step.isHidden with
  | true =>
      simp only [if_true, IssuedNames.serve, main, helper, List.map_cons, List.map_nil]
  | false =>
      simp only [Bool.false_eq_true, if_false, IssuedNames.serve, main, List.map_cons,
        List.map_nil]

/-- A generation leaves the names that its requests do. -/
theorem names_generate :
    (graph.generate context).2.names = (context.names.serve graph.requests).2 := by
  rw [serve_requests, reachedSteps]
  rcases graph.wellFormed_or_firstFault with wellFormed | ⟨error, first⟩
  · obtain ⟨contributed, -, outcome⟩ := graph.generate_of_wellFormed context wellFormed
    obtain ⟨others, -, outcomeEmpty⟩ := graph.generate_of_wellFormed .empty wellFormed
    rw [outcome, outcomeEmpty]
  · rw [graph.generate_of_firstFault context first, graph.generate_of_firstFault .empty first]

/-- The units of a generation are named as its requests are answered. -/
theorem names_units_of_generate_eq_ok {generated : Generated} {after : Context}
    (accepted : graph.generate context = (.ok generated, after)) :
    generated.units.map (fun unit => .ok unit.name) = (context.names.serve graph.requests).1 := by
  obtain ⟨wellFormed, rfl, -⟩ := graph.of_generate_eq_ok context accepted
  obtain ⟨others, -, outcomeEmpty⟩ := graph.generate_of_wellFormed .empty wellFormed
  rw [serve_requests, reachedSteps, outcomeEmpty, ← names_units_generatedIn, List.map_map]
  rfl

end Graph

namespace Context

/-- What can be done with a context: a name is asked for, or a graph is generated. -/
inductive Call where
  | name (request : Request)
  | generate (graph : Graph)

def Call.requests : Call → List Request
  | .name request => [request]
  | .generate graph => graph.requests

def afterCall (context : Context) : Call → Context
  | .name request => { context with names := (context.names.answer request).2 }
  | .generate graph => (graph.generate context).2

def afterCalls (context : Context) (calls : List Call) : Context :=
  calls.foldl afterCall context

theorem names_afterCall (context : Context) (call : Call) :
    (context.afterCall call).names = (context.names.serve call.requests).2 := by
  cases call with
  | name request =>
      rfl
  | generate graph =>
      exact graph.names_generate context

theorem names_afterCalls (context : Context) (calls : List Call) :
    (context.afterCalls calls).names =
      (context.names.serve (calls.flatMap Call.requests)).2 := by
  induction calls generalizing context with
  | nil =>
      rfl
  | cons call calls inductionHypothesis =>
      rw [List.flatMap_cons, IssuedNames.serve_append, ← names_afterCall]
      exact inductionHypothesis (context.afterCall call)

/-- Whatever is done with a context, no name is issued twice: the issued names are those that
requests were granted, and a stem that is an identifier gets the first name that is free. -/
theorem afterCalls_issue_each_name_once (calls : List Call) :
    let issued := (empty.afterCalls calls).names
    let requests := calls.flatMap Call.requests
    let answers := IssuedNames.answers requests
    issued = IssuedNames.after requests ∧
      (IssuedNames.granted answers).Nodup ∧
      (∀ name, issued.has name = true ↔ .ok name ∈ answers) ∧
      issued.size = (IssuedNames.granted answers).length ∧
      (∀ earlier request later, requests = earlier ++ request :: later →
        ∃ found, answers[earlier.length]? = some found ∧
          IssuedNames.Answered earlier request found) ∧
      ∀ earlier graph later, calls = earlier ++ .generate graph :: later →
        ∀ generated after, graph.generate (empty.afterCalls earlier) = (.ok generated, after) →
          generated.units.map (fun unit => .ok unit.name) =
            ((empty.afterCalls earlier).names.serve graph.requests).1 := by
  intro issued requests answers
  have same : issued = IssuedNames.after requests := names_afterCalls empty calls
  have records := IssuedNames.records_after requests
  have names : issued.names = IssuedNames.granted answers := by
    rw [same, records.names]
  refine ⟨same, ?_, ?_, ?_, ?_, ?_⟩
  · rw [← records.names]
    exact records.nodup
  · intro name
    rw [IssuedNames.has, List.contains_iff_mem, names, IssuedNames.mem_granted]
  · rw [IssuedNames.size, names]
  · intro earlier request later parts
    refine ⟨_, ?_, IssuedNames.answered earlier request⟩
    have front : answers = IssuedNames.answers earlier ++
        ((IssuedNames.after earlier).serve (request :: later)).1 := by
      simp only [answers, parts]
      rw [IssuedNames.answers, IssuedNames.serve_append]
      rfl
    have length : (IssuedNames.answers earlier).length = earlier.length :=
      IssuedNames.length_serve _ earlier
    rw [front, List.getElem?_append_right (Nat.le_of_eq length), length, Nat.sub_self]
    rfl
  · intro earlier graph later parts generated after accepted
    exact graph.names_units_of_generate_eq_ok _ accepted

end Context

end AheadOfTime
