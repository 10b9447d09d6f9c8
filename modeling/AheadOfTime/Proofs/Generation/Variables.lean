import Mathlib.Data.List.Nodup
import AheadOfTime.Proofs.Generation.Run
import AheadOfTime.Proofs.Java.Locals

/-!
# Every bean has a variable of its own

The names taken in a draft are the reserved ones and the variables of its beans.  They
are distinct identifiers, and a bean keeps its variable.
-/

namespace AheadOfTime

open Java

namespace Draft

variable {draft : Draft}

/-- The names taken are the variables of the beans and the reserved names, all of them
distinct identifiers. -/
structure Allocated (draft : Draft) : Prop where
  taken :
    draft.locals.taken =
      draft.beans.map (fun entry => entry.2.localName) ++ reservedLocals.taken
  distinct : draft.locals.taken.Nodup
  identifiers : ∀ name ∈ draft.locals.taken, isIdentifier name = true

theorem allocated_start (application name : TypeName) (steps : List Step)
    (names : IssuedNames) : (start application name steps names).Allocated where
  taken := rfl
  distinct := by
    change reservedLocals.taken.Nodup
    decide
  identifiers := by
    change ∀ name ∈ reservedLocals.taken, isIdentifier name = true
    decide +kernel

theorem allocated_after (allocated : draft.Allocated) (step : Step) :
    (draft.after step).Allocated := by
  cases defined : step.defined? with
  | none =>
      have sameLocals : (draft.after step).locals = draft.locals := by
        simp only [after, localsAfter, defined]
      have sameBeans : (draft.after step).beans = draft.beans := by
        simp only [after, beansAfter, defined]
      exact ⟨by rw [sameLocals, sameBeans, allocated.taken],
        by rw [sameLocals]; exact allocated.distinct,
        by rw [sameLocals]; exact allocated.identifiers⟩
  | some definition =>
      obtain ⟨name, record⟩ := definition
      have chosen :
          (draft.after step).locals.taken =
            (draft.locals.allocate name).1 :: draft.locals.taken := by
        simp only [after, localsAfter, defined]
        rfl
      have beans :
          (draft.after step).beans.map (fun entry => entry.2.localName) =
            (draft.locals.allocate name).1 ::
              draft.beans.map (fun entry => entry.2.localName) := by
        simp only [after, beansAfter, defined, List.map_cons]
      refine ⟨?_, ?_, ?_⟩
      · rw [chosen, beans, allocated.taken, List.cons_append]
      · rw [chosen]
        exact List.nodup_cons.2
          ⟨draft.locals.allocate_fst_not_mem name, allocated.distinct⟩
      · rw [chosen]
        exact List.forall_mem_cons.2
          ⟨draft.locals.isIdentifier_allocate_fst name, allocated.identifiers⟩

theorem allocated_afterAll (allocated : draft.Allocated) (steps : List Step) :
    (draft.afterAll steps).Allocated := by
  induction steps generalizing draft with
  | nil =>
      exact allocated
  | cons step rest inductionHypothesis =>
      exact inductionHypothesis (allocated_after allocated step)

theorem mem_beans_of_bean? {name : String} {bean : Bean}
    (found : draft.bean? name = some bean) : (name, bean) ∈ draft.beans := by
  obtain ⟨before, later, parts, -⟩ := List.lookup_eq_some_iff.1 found
  rw [parts]
  exact List.mem_append_right before List.mem_cons_self

theorem exists_bean?_of_has {name : String} (defined : draft.scope.Has name) :
    ∃ bean, draft.bean? name = some bean :=
  Option.ne_none_iff_exists'.1 ((draft.scope_has_iff name).1 defined)

theorem variableIn_beans_eq {name : String} {bean : Bean}
    (found : draft.bean? name = some bean) :
    variableIn draft.beans name = bean.localName := by
  rw [bean?] at found
  simp only [variableIn, found, Option.elim_some]

theorem Allocated.variable_mem {name : String} {bean : Bean} (allocated : draft.Allocated)
    (found : draft.bean? name = some bean) : bean.localName ∈ draft.locals.taken := by
  rw [allocated.taken]
  refine List.mem_append_left _ (List.mem_map.2 ⟨(name, bean), ?_, rfl⟩)
  exact mem_beans_of_bean? found

theorem Allocated.variableIn_injective (allocated : draft.Allocated) {first second : String}
    (firstDefined : draft.scope.Has first) (secondDefined : draft.scope.Has second)
    (same : variableIn draft.beans first = variableIn draft.beans second) :
    first = second := by
  obtain ⟨firstBean, firstFound⟩ := exists_bean?_of_has firstDefined
  obtain ⟨secondBean, secondFound⟩ := exists_bean?_of_has secondDefined
  rw [variableIn_beans_eq firstFound, variableIn_beans_eq secondFound] at same
  have distinct := allocated.distinct
  rw [allocated.taken] at distinct
  have sameEntry : (first, firstBean) = (second, secondBean) :=
    List.inj_on_of_nodup_map (List.nodup_append.1 distinct).1
      (mem_beans_of_bean? firstFound) (mem_beans_of_bean? secondFound) same
  exact congrArg Prod.fst sameEntry

theorem Allocated.variableIn_not_mem_reserved (allocated : draft.Allocated) {name : String}
    (defined : draft.scope.Has name) :
    variableIn draft.beans name ∉ reservedLocals.taken := by
  obtain ⟨bean, found⟩ := exists_bean?_of_has defined
  have distinct := allocated.distinct
  rw [allocated.taken] at distinct
  rw [variableIn_beans_eq found]
  intro reserved
  refine (List.nodup_append.1 distinct).2.2 _ ?_ _ reserved rfl
  exact List.mem_map.2 ⟨(name, bean), mem_beans_of_bean? found, rfl⟩

theorem Allocated.isIdentifier_variableIn (allocated : draft.Allocated) {name : String}
    (defined : draft.scope.Has name) :
    isIdentifier (variableIn draft.beans name) = true := by
  obtain ⟨bean, found⟩ := exists_bean?_of_has defined
  rw [variableIn_beans_eq found]
  exact allocated.identifiers _ (allocated.variable_mem found)

theorem variableIn_after {step : Step}
    (wellFormed : step.WellFormed draft.application draft.scope) {name : String}
    (known : draft.scope.Has name) :
    variableIn (draft.after step).beans name = variableIn draft.beans name := by
  obtain ⟨bean, found⟩ := exists_bean?_of_has known
  have knows := draft.namingAt_knows fun newName record defined => by
    have new := wellFormed.new defined
    rwa [scope_has_iff, Classical.not_not] at new
  exact (knows name bean found).trans (variableIn_beans_eq found).symm

/-- A bean keeps its variable through steps that have no fault. -/
theorem variableIn_afterAll {steps : List Step}
    (admitted : draft.scope.Admits draft.application steps) {name : String}
    (known : draft.scope.Has name) :
    variableIn (draft.afterAll steps).beans name = variableIn draft.beans name := by
  induction steps generalizing draft with
  | nil =>
      rfl
  | cons step rest inductionHypothesis =>
      obtain ⟨wellFormed, restAdmitted⟩ := admitted
      rw [← scope_after] at restAdmitted
      have kept : (draft.after step).scope.Has name := by
        rw [scope_after]
        exact Scope.has_after known step
      refine (inductionHypothesis restAdmitted kept).trans ?_
      exact variableIn_after wellFormed known

/-- How the statements of a run through steps are written: with the variables that the
beans have in the end. -/
def namingThrough (draft : Draft) (steps : List Step) : Naming :=
  ⟨variableIn (draft.afterAll steps).beans, draft.helperName, draft.imports⟩

theorem namingThrough_after (step : Step) (rest : List Step) :
    (draft.after step).namingThrough rest =
      (draft.namingThrough (step :: rest)).after step := by
  have imports :
      (draft.after step).imports = ((draft.namingThrough (step :: rest)).after step).imports := by
    unfold after Naming.after
    cases step.isHidden with
    | true =>
        rfl
    | false =>
        rfl
  rw [namingThrough, helperName_after, imports]
  unfold Naming.after
  cases step.isHidden with
  | true =>
      rfl
  | false =>
      rfl

theorem namingAt_agreesOn {step : Step} {rest : List Step}
    (admitted : (draft.after step).scope.Admits draft.application rest) :
    (draft.namingAt step).AgreesOn (draft.scope.after step)
      (draft.namingThrough (step :: rest)) where
  sameVariable name known := by
    rw [← scope_after] at known
    exact (variableIn_afterAll admitted known).symm
  sameHelper := rfl
  sameImports := rfl

/-- A run through steps without faults adds the statements that replay them. -/
theorem statements_afterAll {steps : List Step}
    (admitted : draft.scope.Admits draft.application steps) :
    (draft.afterAll steps).statements =
      draft.statements ++ (draft.namingThrough steps).replay draft.scope steps := by
  induction steps generalizing draft with
  | nil =>
      exact (List.append_nil _).symm
  | cons step rest inductionHypothesis =>
      obtain ⟨wellFormed, restAdmitted⟩ := admitted
      rw [← scope_after] at restAdmitted
      -- The step is written with the variables known after it. Later steps keep these, so
      -- it may as well be written with the variables of the end.
      have here := Step.statements_congr wellFormed (namingAt_agreesOn restAdmitted)
      refine (inductionHypothesis restAdmitted).trans ?_
      rw [namingThrough_after, scope_after, Naming.replay, ← here, ← List.append_assoc]
      rfl

end Draft

end AheadOfTime
