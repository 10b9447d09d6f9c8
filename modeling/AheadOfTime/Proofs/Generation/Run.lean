import AheadOfTime.Proofs.Generation.Step

/-!
# What steps in turn do to a draft

Steps run up to the first that has a fault.  What a run leaves in a draft is stated for
each of its fields, by induction on the steps.
-/

namespace AheadOfTime

open Java

namespace Scope

/-- Steps are all admitted, or there is a first one that has a fault. -/
theorem admits_or_fault (application : TypeName) (scope : Scope) (steps : List Step) :
    scope.Admits application steps ∨
      ∃ earlier step later fault, steps = earlier ++ step :: later ∧
        scope.Admits application earlier ∧
        (step.faults application (scope.afterAll earlier)).head? = some fault := by
  induction steps generalizing scope with
  | nil =>
      exact Or.inl trivial
  | cons step rest inductionHypothesis =>
      cases faults : step.faults application scope with
      | cons fault others =>
          refine Or.inr ⟨[], step, rest, fault, rfl, trivial, ?_⟩
          rw [afterAll, List.foldl_nil, faults]
          rfl
      | nil =>
          have wellFormed := (step.wellFormed_iff_faults application scope).2 faults
          rcases inductionHypothesis (scope.after step) with admitted | failed
          · exact Or.inl ⟨wellFormed, admitted⟩
          · obtain ⟨earlier, failing, later, fault, parts, admitted, head⟩ := failed
            refine Or.inr
              ⟨step :: earlier, failing, later, fault, ?_, ⟨wellFormed, admitted⟩, head⟩
            rw [parts, List.cons_append]

end Scope

namespace Draft

variable (draft : Draft)

def afterAll (steps : List Step) : Draft :=
  steps.foldl after draft

theorem scope_after (step : Step) : (draft.after step).scope = draft.scope.after step := by
  simp only [scope, after, beansAfter, Scope.after]
  cases step.defined? with
  | none =>
      rfl
  | some definition =>
      rfl

theorem scope_afterAll (steps : List Step) :
    (draft.afterAll steps).scope = draft.scope.afterAll steps := by
  induction steps generalizing draft with
  | nil =>
      rfl
  | cons step rest inductionHypothesis =>
      refine (inductionHypothesis (draft.after step)).trans ?_
      rw [scope_after]
      rfl

theorem helperName_after (step : Step) : (draft.after step).helperName = draft.helperName := by
  unfold helperName after
  cases step.isHidden with
  | true =>
      rfl
  | false =>
      rfl

theorem helperNames_after (step : Step) :
    (draft.after step).helperNames = draft.helperNames := by
  unfold helperNames after
  cases step.isHidden with
  | true =>
      rfl
  | false =>
      rfl

theorem settled_after {draft : Draft} (settled : draft.Settled) (step : Step) :
    (draft.after step).Settled := by
  intro name uses found
  simp only [after, Naming.after] at found ⊢
  cases hidden : step.isHidden with
  | true =>
      simp only [hidden, if_true, Option.some.injEq, Prod.mk.injEq] at found ⊢
      obtain ⟨rfl, -⟩ := found
      exact draft.imports.claim_claim draft.helperName
  | false =>
      rw [hidden] at found
      exact settled name uses found

/-- What the first hidden step settles is settled when there is a hidden step. -/
theorem afterAll_of_hidden {α : Type} (field settled : Draft → α)
    (kept : ∀ (draft : Draft) (step : Step), settled (draft.after step) = settled draft)
    (changed : ∀ (draft : Draft) (step : Step),
      field (draft.after step) = if step.isHidden then settled draft else field draft)
    (steps : List Step) :
    field (draft.afterAll steps) =
      if steps.any Step.isHidden then settled draft else field draft := by
  induction steps generalizing draft with
  | nil =>
      rfl
  | cons step rest inductionHypothesis =>
      refine (inductionHypothesis (draft.after step)).trans ?_
      rw [kept, changed, List.any_cons]
      cases step.isHidden with
      | true =>
          rw [Bool.true_or, if_pos rfl, ite_self]
      | false =>
          rfl

/-- Names are issued at the first hidden step only. -/
theorem names_afterAll (steps : List Step) :
    (draft.afterAll steps).names =
      if steps.any Step.isHidden then draft.helperNames else draft.names :=
  draft.afterAll_of_hidden names helperNames helperNames_after (fun _ _ => rfl) steps

/-- The helper claims its simple name at the first hidden step, and nothing else is
claimed while steps run. -/
theorem imports_afterAll (steps : List Step) :
    (draft.afterAll steps).imports =
      if steps.any Step.isHidden then draft.imports.claim draft.helperName else draft.imports := by
  have changed : ∀ (draft : Draft) (step : Step), (draft.after step).imports =
      if step.isHidden then draft.imports.claim draft.helperName else draft.imports := by
    intro draft step
    rw [after, Naming.after]
    cases step.isHidden with
    | true =>
        rfl
    | false =>
        rfl
  have kept : ∀ (draft : Draft) (step : Step),
      (draft.after step).imports.claim (draft.after step).helperName =
        draft.imports.claim draft.helperName := by
    intro draft step
    rw [changed, helperName_after]
    split
    · rw [Imports.claim_claim]
    · rfl
  exact draft.afterAll_of_hidden imports (fun draft => draft.imports.claim draft.helperName) kept
    changed steps

/-- There is a helper from the first hidden step on. -/
theorem helper_afterAll (steps : List Step) :
    (draft.afterAll steps).helper.map Prod.fst =
      if steps.any Step.isHidden then some draft.helperName else draft.helper.map Prod.fst := by
  have changed : ∀ (draft : Draft) (step : Step), (draft.after step).helper.map Prod.fst =
      if step.isHidden then some draft.helperName else draft.helper.map Prod.fst := by
    intro draft step
    rw [after]
    cases step.isHidden with
    | true =>
        rfl
    | false =>
        rfl
  have kept : ∀ (draft : Draft) (step : Step),
      some (draft.after step).helperName = some draft.helperName :=
    fun draft step => congrArg some (draft.helperName_after step)
  exact draft.afterAll_of_hidden (fun draft => draft.helper.map Prod.fst)
    (fun draft => some draft.helperName) kept changed steps

theorem registrations_afterAll (steps : List Step) :
    (draft.afterAll steps).registrations =
      draft.registrations ++
        (draft.scope.accesses steps).map (Access.registration draft.application) := by
  induction steps generalizing draft with
  | nil =>
      exact (List.append_nil _).symm
  | cons step rest inductionHypothesis =>
      refine (inductionHypothesis (draft.after step)).trans ?_
      rw [scope_after, Scope.accesses, List.map_append, ← List.append_assoc]
      rfl

/-- A run goes on behind a step without a fault. -/
theorem addSteps_cons {draft : Draft} (settled : draft.Settled) {step : Step}
    (wellFormed : step.WellFormed draft.application draft.scope) (index : Nat)
    (rest : List Step) :
    draft.addSteps index (step :: rest) = (draft.after step).addSteps (index + 1) rest := by
  have reports := draft.addStep_reports settled index step
  rw [(step.wellFormed_iff_faults draft.application draft.scope).1 wellFormed] at reports
  obtain ⟨next, added, rfl⟩ := reports.exists_ok
  rw [addSteps, added]

/-- Steps without faults all go through. -/
theorem addSteps_of_admits {draft : Draft} (settled : draft.Settled) {steps : List Step}
    (admitted : draft.scope.Admits draft.application steps) (index : Nat) :
    draft.addSteps index steps = (draft.afterAll steps, none) := by
  induction steps generalizing draft index with
  | nil =>
      rfl
  | cons step rest inductionHypothesis =>
      obtain ⟨wellFormed, restAdmitted⟩ := admitted
      rw [← scope_after] at restAdmitted
      rw [addSteps_cons settled wellFormed]
      exact inductionHypothesis (settled_after settled step) restAdmitted (index + 1)

/-- The first step with a fault ends a run. -/
theorem addSteps_of_fault {draft : Draft} (settled : draft.Settled) {earlier : List Step}
    (admitted : draft.scope.Admits draft.application earlier) {step : Step} {fault : StepFault}
    (head :
      (step.faults draft.application (draft.scope.afterAll earlier)).head? = some fault)
    (later : List Step) (index : Nat) :
    draft.addSteps index (earlier ++ step :: later) =
      (draft.afterAll earlier, some (.step (index + earlier.length) step fault)) := by
  induction earlier generalizing draft index with
  | nil =>
      have reports := draft.addStep_reports settled index step
      rw [List.nil_append, addSteps, reports.eq_error head]
      rfl
  | cons first earlier inductionHypothesis =>
      obtain ⟨wellFormed, restAdmitted⟩ := admitted
      rw [← scope_after] at restAdmitted
      rw [Scope.afterAll, List.foldl_cons, ← scope_after] at head
      rw [List.cons_append, addSteps_cons settled wellFormed, List.length_cons,
        Nat.add_comm earlier.length 1, ← Nat.add_assoc]
      exact inductionHypothesis (settled_after settled first) restAdmitted head (index + 1)

end Draft

end AheadOfTime
