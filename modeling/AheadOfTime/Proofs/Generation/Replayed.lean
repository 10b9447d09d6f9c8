import AheadOfTime.Proofs.Generation.Statements

/-!
# What a replay declares, uses and reaches

The facts about the statements of one step, for the statements of steps in turn.
-/

namespace AheadOfTime

open Java

def definedBeans (steps : List Step) : List String :=
  steps.filterMap fun step => step.defined?.map Prod.fst

theorem definedBeans_cons (step : Step) (rest : List Step) :
    definedBeans (step :: rest) =
      step.defined?.toList.map Prod.fst ++ definedBeans rest := by
  rw [definedBeans, List.filterMap_cons]
  cases step.defined? <;> rfl

namespace Scope

theorem has_afterAll_iff (scope : Scope) (steps : List Step) (bean : String) :
    (scope.afterAll steps).Has bean ↔ bean ∈ definedBeans steps ∨ scope.Has bean := by
  induction steps generalizing scope with
  | nil =>
      simp [afterAll, definedBeans]
  | cons step rest inductionHypothesis =>
      have here : (∃ record, step.defined? = some (bean, record)) ↔
          bean ∈ step.defined?.toList.map Prod.fst := by
        cases step.defined? with
        | none =>
            simp
        | some definition =>
            simp [Prod.ext_iff, eq_comm]
      refine (inductionHypothesis (scope.after step)).trans ?_
      rw [has_after_iff, here, definedBeans_cons, List.mem_append, ← or_assoc,
        or_comm (a := bean ∈ definedBeans rest)]

theorem has_of_iff (steps : List Step) (bean : String) :
    (of steps).Has bean ↔ bean ∈ definedBeans steps := by
  rw [of, has_afterAll_iff]
  simp [Has]

/-- Admitted steps define no bean twice, nor one that is known before. -/
theorem nodup_definedBeans {application : TypeName} {scope : Scope} {steps : List Step}
    (admitted : scope.Admits application steps) :
    (definedBeans steps).Nodup ∧ ∀ bean ∈ definedBeans steps, ¬ scope.Has bean := by
  induction steps generalizing scope with
  | nil =>
      exact ⟨List.nodup_nil, List.forall_mem_nil _⟩
  | cons step rest inductionHypothesis =>
      obtain ⟨wellFormed, restAdmitted⟩ := admitted
      obtain ⟨restDistinct, restNew⟩ := inductionHypothesis restAdmitted
      have restNewBefore : ∀ bean ∈ definedBeans rest, ¬ scope.Has bean :=
        fun bean member known => restNew bean member (has_after known step)
      rw [definedBeans_cons]
      cases defined : step.defined? with
      | none =>
          exact ⟨restDistinct, restNewBefore⟩
      | some definition =>
          obtain ⟨name, record⟩ := definition
          refine ⟨List.nodup_cons.2 ⟨fun again => ?_, restDistinct⟩, ?_⟩
          · exact restNew name again (scope.has_after_defined defined)
          · exact List.forall_mem_cons.2 ⟨wellFormed.new defined, restNewBefore⟩

end Scope

namespace Naming

variable (naming : Naming) (scope : Scope)

theorem variableOf_after (step : Step) :
    (naming.after step).variableOf = naming.variableOf := by
  rw [after]
  split <;> rfl

theorem declared_replay (steps : List Step) :
    (naming.replay scope steps).filterMap Statement.declared? =
      (definedBeans steps).map naming.variableOf := by
  induction steps generalizing naming scope with
  | nil =>
      rfl
  | cons step rest inductionHypothesis =>
      rw [replay, List.filterMap_append, Step.declared_statements, inductionHypothesis,
        variableOf_after, definedBeans_cons, List.map_append, List.map_map]
      rfl

variable {naming scope}

theorem wellScoped_replay {application : TypeName} {steps : List Step}
    (admitted : scope.Admits application steps) {declared : List String}
    (known : ∀ bean, scope.Has bean → naming.variableOf bean ∈ declared) :
    Statement.WellScoped declared (naming.replay scope steps) := by
  induction steps generalizing naming scope declared with
  | nil =>
      trivial
  | cons step rest inductionHypothesis =>
      obtain ⟨wellFormed, restAdmitted⟩ := admitted
      refine (Step.wellScoped_statements wellFormed known).append ?_
      refine inductionHypothesis restAdmitted fun bean has => ?_
      rw [variableOf_after, Step.declared_statements]
      rcases (scope.has_after_iff step bean).1 has with ⟨record, defined⟩ | before
      · refine List.mem_append_left _ (List.mem_map.2 ⟨(bean, record), ?_, rfl⟩)
        exact Option.mem_toList.2 defined
      · exact List.mem_append_right _ (known bean before)

theorem plainNames_replay {application : TypeName} {steps : List Step}
    (admitted : scope.Admits application steps)
    (named : ∀ bean, (scope.afterAll steps).Has bean → Plain (naming.variableOf bean)) :
    ∀ statement ∈ naming.replay scope steps, statement.PlainNames := by
  induction steps generalizing naming scope with
  | nil =>
      exact List.forall_mem_nil _
  | cons step rest inductionHypothesis =>
      obtain ⟨wellFormed, restAdmitted⟩ := admitted
      intro statement member
      rcases List.mem_append.1 member with here | later
      · refine Step.plainNames_statements wellFormed (fun bean known => named bean ?_) here
        exact ((scope.after step).has_afterAll_iff rest bean).2 (Or.inr known)
      · refine inductionHypothesis restAdmitted (fun bean known => ?_) statement later
        rw [variableOf_after]
        exact named bean known

end Naming

theorem Step.length_statements {application : TypeName} {scope : Scope} {step : Step}
    (wellFormed : step.WellFormed application scope) (naming : Naming) :
    (step.statements naming scope).length = if step.defined?.isSome then 2 else 1 := by
  cases step with
  | literal bean value =>
      rfl
  | creation made =>
      rfl
  | property set =>
      obtain ⟨type, owner⟩ := (PropertyValue.WellFormed.object wellFormed).typeOf?_eq
      rw [statements, owner]
      rfl
  | callback bean method visibility =>
      obtain ⟨type, owner⟩ := wellFormed.1.typeOf?_eq
      rw [statements, owner]
      rfl
  | supplier bean type =>
      cases wellFormed

end AheadOfTime
