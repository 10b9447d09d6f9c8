import AheadOfTime.Proofs.Generation.Spelling

/-!
# Calls of the helper

Each hidden step calls one method of the helper, and no other step calls any.  All calls
write the helper alike: it has claimed its simple name by then.
-/

namespace AheadOfTime

open Java

/-- The helper as it is written in a statement that calls it, and the method called. -/
def Java.Statement.helperCall? : Statement → Option (TypeUse × String)
  | .createHidden helper .. => some (helper, "instantiate")
  | .callHiddenSetter helper .. => some (helper, "invoke")
  | .assignHidden helper .. => some (helper, "setField")
  | .callHidden helper .. => some (helper, "invoke")
  | .declare .. | .create .. | .publish .. | .callSetter .. | .assign .. | .call .. => none

/-- A statement that calls the helper ends with the call. -/
theorem Java.Statement.text_of_helperCall? {statement : Statement} {helper : TypeUse}
    {method : String} (calls : statement.helperCall? = some (helper, method)) :
    ∃ front arguments,
      statement.text = front ++ Statement.helperCall helper method arguments ++ ";" := by
  cases statement with
  | createHidden called type name parameters arguments =>
      obtain ⟨rfl, rfl⟩ := Prod.mk.inj (Option.some.inj calls)
      exact ⟨type.spelling ++ " " ++ name ++ " = ", _, rfl⟩
  | callHiddenSetter called type name setter parameters value =>
      obtain ⟨rfl, rfl⟩ := Prod.mk.inj (Option.some.inj calls)
      exact ⟨"", _, by rw [String.empty_append]; rfl⟩
  | assignHidden called type name field value =>
      obtain ⟨rfl, rfl⟩ := Prod.mk.inj (Option.some.inj calls)
      exact ⟨"", _, by rw [String.empty_append]; rfl⟩
  | callHidden called type name method parameters =>
      obtain ⟨rfl, rfl⟩ := Prod.mk.inj (Option.some.inj calls)
      exact ⟨"", _, by rw [String.empty_append]; rfl⟩
  | declare type name value =>
      cases calls
  | create type name arguments =>
      cases calls
  | publish bean name =>
      cases calls
  | callSetter name setter value =>
      cases calls
  | assign name field value =>
      cases calls
  | call name method =>
      cases calls

def Step.helperMethod? : Step → Option String
  | .creation made =>
      match made.visibility with
      | .exposed => none
      | .hidden => some "instantiate"
  | .property set =>
      match set.injection, set.visibility with
      | _, .exposed => none
      | .setter, .hidden => some "invoke"
      | .field, .hidden => some "setField"
  | .callback _ _ visibility =>
      match visibility with
      | .exposed => none
      | .hidden => some "invoke"
  | .literal .. | .supplier .. => none

namespace Step

theorem isSome_helperMethod? (step : Step) : step.helperMethod?.isSome = step.isHidden := by
  cases step with
  | literal bean value =>
      rfl
  | creation made =>
      rw [helperMethod?, isHidden]
      cases made.visibility <;> rfl
  | property set =>
      rw [helperMethod?, isHidden]
      cases set.injection <;> cases set.visibility <;> rfl
  | callback bean method visibility =>
      cases visibility <;> rfl
  | supplier bean type =>
      rfl

/-- A step calls the helper once when it is hidden, and does not otherwise. -/
theorem helperCalls_statements (naming : Naming) {application : TypeName} {scope : Scope}
    {step : Step} (wellFormed : step.WellFormed application scope) :
    (step.statements naming scope).filterMap Statement.helperCall? =
      step.helperMethod?.toList.map fun method =>
        (naming.claimed.imports.use naming.helper, method) := by
  cases step with
  | literal bean value =>
      rfl
  | creation made =>
      rw [statements, Creation.statement, helperMethod?]
      cases made.visibility <;> rfl
  | property set =>
      obtain ⟨type, found⟩ := wellFormed.object.typeOf?_eq
      rw [statements, found, Option.toList_some, List.map_singleton, PropertyValue.statement,
        helperMethod?]
      cases set.injection <;> cases set.visibility <;> rfl
  | callback bean method visibility =>
      obtain ⟨type, found⟩ := wellFormed.1.typeOf?_eq
      rw [statements, found, Option.toList_some, List.map_singleton]
      cases visibility <;> rfl
  | supplier bean type =>
      rfl

end Step

theorem Naming.claimed_after (naming : Naming) (step : Step) :
    (naming.after step).claimed = naming.claimed := by
  rw [after]
  split
  · exact naming.claimed_claimed
  · rfl

theorem Naming.helper_after (naming : Naming) (step : Step) :
    (naming.after step).helper = naming.helper := by
  rw [after]
  split <;> rfl

/-- The hidden steps of a replay call the helper in turn. -/
theorem Naming.helperCalls_replay (naming : Naming) {application : TypeName} {scope : Scope}
    {steps : List Step} (admitted : scope.Admits application steps) :
    (naming.replay scope steps).filterMap Statement.helperCall? =
      (steps.filterMap Step.helperMethod?).map fun method =>
        (naming.claimed.imports.use naming.helper, method) := by
  induction steps generalizing naming scope with
  | nil =>
      rfl
  | cons step rest inductionHypothesis =>
      obtain ⟨wellFormed, restAdmitted⟩ := admitted
      rw [replay, List.filterMap_append, Step.helperCalls_statements naming wellFormed,
        inductionHypothesis (naming.after step) restAdmitted, claimed_after, helper_after]
      cases found : step.helperMethod? with
      | none =>
          rw [List.filterMap_cons_none found]
          rfl
      | some method =>
          rw [List.filterMap_cons_some found]
          rfl

namespace Graph

variable (graph : Graph) (context : Context)

/-- The helper as it is written once it has claimed its simple name. -/
def helperUse : TypeUse :=
  (graph.namingIn context).claimed.imports.use (graph.namingIn context).helper

theorem helperCalls_generatedIn (wellFormed : graph.HasWellFormedSteps) :
    (graph.generatedIn context).initializer.statements.filterMap Statement.helperCall? =
      (graph.steps.filterMap Step.helperMethod?).map fun method =>
        (graph.helperUse context, method) := by
  rw [graph.statements_generatedIn context wellFormed]
  exact (graph.namingIn context).helperCalls_replay (graph.hasWellFormedSteps_iff.1 wellFormed)

variable {statement : Statement} {use : TypeUse} {method : String}

/-- A call of the helper is that of a hidden step. -/
theorem exists_hidden_of_helperCall? (wellFormed : graph.HasWellFormedSteps)
    (member : statement ∈ (graph.generatedIn context).initializer.statements)
    (calls : statement.helperCall? = some (use, method)) :
    use = graph.helperUse context ∧ ∃ step ∈ graph.steps, step.helperMethod? = some method := by
  have listed : (use, method) ∈
      (graph.generatedIn context).initializer.statements.filterMap Statement.helperCall? :=
    List.mem_filterMap.2 ⟨statement, member, calls⟩
  rw [graph.helperCalls_generatedIn context wellFormed] at listed
  obtain ⟨called, calledMember, same⟩ := List.mem_map.1 listed
  obtain ⟨rfl, rfl⟩ := Prod.mk.inj same
  exact ⟨rfl, List.mem_filterMap.1 calledMember⟩

theorem isHidden_of_helperMethod? {step : Step} (member : step ∈ graph.steps)
    (calls : step.helperMethod? = some method) : graph.steps.any Step.isHidden = true := by
  refine List.any_eq_true.2 ⟨step, member, ?_⟩
  rw [← step.isSome_helperMethod?, calls]
  rfl

/-- When there is a call of the helper the helper is generated, and has claimed its simple
name in the initializer. -/
theorem claimed_of_helperMethod? {step : Step} (member : step ∈ graph.steps)
    (calls : step.helperMethod? = some method) :
    (graph.generatedIn context).helper.map Helper.name = some (graph.namingIn context).helper ∧
      (graph.generatedIn context).initializer.imports =
        (graph.namingIn context).claimed.imports := by
  have hidden := graph.isHidden_of_helperMethod? member calls
  rw [helper_generatedIn, imports_generatedIn, if_pos hidden, if_pos hidden]
  exact ⟨rfl, rfl⟩

end Graph

end AheadOfTime
