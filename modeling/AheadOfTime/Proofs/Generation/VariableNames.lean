import AheadOfTime.Proofs.Generation.Outcome
import AheadOfTime.Proofs.Generation.Replayed
import AheadOfTime.Proofs.Java.Locals.Legality

/-!
# The variables that an initializer declares

An initializer declares the variables of its beans, taken in turn.  A compiler accepts
each of them, save for the first of a bean that is spelled as a primitive type or as a
lone underscore.
-/

namespace AheadOfTime

open Java

namespace Draft

variable (draft : Draft)

theorem locals_after (step : Step) :
    (draft.after step).locals =
      (draft.locals.allocateAll (step.defined?.toList.map Prod.fst)).2 := by
  simp only [after, localsAfter]
  cases step.defined? <;> rfl

theorem declared_after (step : Step) :
    (draft.after step).statements.filterMap Statement.declared? =
      draft.statements.filterMap Statement.declared? ++
        (draft.locals.allocateAll (step.defined?.toList.map Prod.fst)).1 := by
  have statements : (draft.after step).statements =
      draft.statements ++ step.statements (draft.namingAt step) draft.scope := rfl
  rw [statements, List.filterMap_append, Step.declared_statements]
  cases defined : step.defined? with
  | none =>
      rfl
  | some definition =>
      obtain ⟨name, record⟩ := definition
      simp only [Option.toList_some, List.map_singleton, draft.variableOf_namingAt defined]
      rfl

/-- A run declares the variables that its beans take in turn. -/
theorem declared_afterAll (steps : List Step) :
    (draft.afterAll steps).statements.filterMap Statement.declared? =
      draft.statements.filterMap Statement.declared? ++
        (draft.locals.allocateAll (definedBeans steps)).1 := by
  induction steps generalizing draft with
  | nil =>
      exact (List.append_nil _).symm
  | cons step rest inductionHypothesis =>
      refine (inductionHypothesis (draft.after step)).trans ?_
      rw [declared_after, locals_after, definedBeans_cons, Locals.allocateAll_append,
        List.append_assoc]

end Draft

namespace Graph

/-- An initializer declares the variables that the beans of its graph take in turn. -/
theorem declared_generatedIn (graph : Graph) (context : Context) :
    (graph.generatedIn context).initializer.statements.filterMap Statement.declared? =
      (Draft.reservedLocals.allocateAll (definedBeans graph.steps)).1 :=
  (graph.startIn context).declared_afterAll graph.steps

end Graph

/-- Beans in turn get variables of letters, digits and underscores that start with no
digit and are no reserved words; a compiler accepts the variable unless its bean is the
first to be spelled as a primitive type or as a lone underscore. -/
theorem Draft.variables_are_accepted_unless_kept (earlier later : List String)
    (bean : String) :
    ∃ before name after,
      (reservedLocals.allocateAll (earlier ++ bean :: later)).1 = before ++ name :: after ∧
      before.length = earlier.length ∧
      isPlainShape name.toList = true ∧ name ∉ reservedWords ∧
      (IsVariableName name ↔
        ¬ (Locals.spelled bean ∈ keptWords ∧
          ∀ other ∈ earlier, Locals.spelled other ≠ Locals.spelled bean)) := by
  have free : ∀ word ∈ keptWords, word ∉ reservedLocals.taken := by decide
  refine ⟨_, ((reservedLocals.allocateAll earlier).2.allocate bean).1, _,
    reservedLocals.allocateAll_append earlier (bean :: later),
    reservedLocals.length_allocateAll earlier,
    Locals.isPlainShape_allocate_fst _ bean,
    not_mem_reservedWords (Locals.isIdentifier_allocate_fst _ bean), ?_⟩
  refine (reservedLocals.isVariableName_allocate_fst_iff earlier bean).trans (not_congr ?_)
  exact and_congr_right fun kept => and_iff_right (free _ kept)

/-- A graph with a bean that is called by the name of a primitive type. -/
def Graph.primitiveGraph : Graph where
  application := ⟨[{ text := "com" }, { text := "example" }], { text := "App" }⟩
  steps := [.literal "int" (.text "hello")]
  contributions := []

theorem Graph.primitiveGraph_wellFormed : primitiveGraph.WellFormed where
  steps := primitiveGraph.hasWellFormedSteps_iff.2 (by decide +kernel)
  contributions := by decide +kernel

/-- A bean called `int` gets a variable of that name, which no compiler accepts. -/
theorem Graph.primitiveGraph_declares_kept_word :
    (Draft.reservedLocals.allocateAll ["int"]).1 = ["int"] ∧ ¬ IsVariableName "int" ∧
      ∃ generated after, primitiveGraph.generate .empty = (.ok generated, after) ∧
        generated.initializer.statements.map Statement.text =
          ["String int = \"hello\";", "beanFactory.registerSingleton(\"int\", int);"] := by
  obtain ⟨contributed, -, accepted⟩ :=
    primitiveGraph.generate_of_wellFormed .empty primitiveGraph_wellFormed
  refine ⟨by decide +kernel, fun accepts => accepts.unkept (by decide), _, _, accepted, ?_⟩
  decide +kernel

end AheadOfTime
