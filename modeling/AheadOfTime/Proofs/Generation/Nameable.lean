import AheadOfTime.Proofs.Generation.Spelling

/-!
# Types that source code can name

A class cannot name a nested type by its binary name, nor a type of the default package
from another one.  The types of beans are checked for that, and so every type that an
initializer imports, declares, creates or writes as a class can be named, save for
parameter types that a step declares.  Such a type is written when the step is hidden,
and imported when it owns its simple name.
-/

namespace AheadOfTime

open Java

/-- Whether source code in the package of an application can name a type. -/
structure TypeName.IsNameable (type application : TypeName) : Prop where
  notNested : '$' ∉ type.simple.text.toList
  packaged : type.package = [] → type.isPrimitive = false → application.package = []

namespace TypeName

variable (application : TypeName)

instance (type : TypeName) : Decidable (type.IsNameable application) :=
  decidable_of_iff
    ('$' ∉ type.simple.text.toList ∧
      (type.package = [] → type.isPrimitive = false → application.package = []))
    ⟨fun both => ⟨both.1, both.2⟩, fun nameable => ⟨nameable.notNested, nameable.packaged⟩⟩

theorem isNameable_of_package {type : TypeName} (packaged : type.package ≠ [])
    (notNested : '$' ∉ type.simple.text.toList) : type.IsNameable application where
  notNested := notNested
  packaged empty := absurd empty packaged

theorem isNameable_of_isPrimitive {type : TypeName} (primitive : type.isPrimitive = true)
    (notNested : '$' ∉ type.simple.text.toList) : type.IsNameable application where
  notNested := notNested
  packaged _ notPrimitive := by
    rw [primitive] at notPrimitive
    cases notPrimitive

end TypeName

namespace Literal

/-- The type of a literal is a primitive type or the class of texts, and boxed it is one
of `java.lang`. -/
theorem type_mem (value : Literal) :
    value.type ∈ [TypeName.unpackaged { text := "boolean" }, .unpackaged { text := "int" },
      .unpackaged { text := "long" }, .unpackaged { text := "double" },
      .lang TypeName.stringName] := by
  cases value with
  | boolean value =>
      simp [type]
  | integer value =>
      rw [type]
      split <;> simp
  | real value =>
      simp [type]
  | text value =>
      simp [type]

theorem isNameable_type (value : Literal) (application : TypeName) :
    value.type.IsNameable application ∧ value.type.boxed.IsNameable application := by
  have table : ∀ type ∈ [TypeName.unpackaged { text := "boolean" },
      .unpackaged { text := "int" }, .unpackaged { text := "long" },
      .unpackaged { text := "double" }, .lang TypeName.stringName],
      (type.isPrimitive = true ∨ type.package ≠ []) ∧ '$' ∉ type.simple.text.toList ∧
        type.boxed.package ≠ [] ∧ '$' ∉ type.boxed.simple.text.toList := by
    decide
  obtain ⟨known, notNested, boxedPackaged, boxedNotNested⟩ := table _ value.type_mem
  refine ⟨?_, TypeName.isNameable_of_package application boxedPackaged boxedNotNested⟩
  rcases known with primitive | packaged
  · exact TypeName.isNameable_of_isPrimitive application primitive notNested
  · exact TypeName.isNameable_of_package application packaged notNested

end Literal

theorem Creation.isNameable_of_wellFormed {application : TypeName} {scope : Scope}
    (made : Creation) (wellFormed : made.WellFormed application scope) :
    made.type.IsNameable application where
  notNested := wellFormed.notNested
  packaged empty _ := wellFormed.packaged empty

/-- The occurrences of types in a statement, apart from the helper that it calls: those of
variables that it declares, of objects that it creates, and of classes. -/
def Java.Statement.named : Statement → List TypeUse
  | .declare type _ _ => [type]
  | .create type _ _ => [type]
  | .createHidden _ type _ parameters _ => type :: parameters.element :: parameters.types
  | .callHiddenSetter _ type _ _ parameters _ =>
      type :: parameters.element :: parameters.types
  | .assignHidden _ type _ _ _ => [type]
  | .callHidden _ type _ _ parameters => type :: parameters.element :: parameters.types
  | .publish .. | .callSetter .. | .assign .. | .call .. => []

namespace Step

def declaredParameters : Step → List TypeName
  | creation made => made.parameterTypes.getD []
  | property set => set.parameterType.toList
  | literal .. | callback .. | supplier .. => []

/-- Whether a step looks its constructor or setter up by its parameter types. -/
def passesParameters : Step → Bool
  | creation made => made.visibility == .hidden
  | property set => set.injection == .setter && set.visibility == .hidden
  | literal .. | callback .. | supplier .. => false

/-- The types that the statements of a step name, apart from the helper. -/
def named (scope : Scope) : Step → List TypeName
  | literal _ value => [value.type.boxed]
  | creation made =>
      made.type ::
        if made.visibility = .hidden then .lang TypeName.className :: made.parameters scope
        else []
  | property set =>
      match scope.typeOf? set.bean with
      | none => []
      | some type =>
          match set.injection, set.visibility with
          | .setter, .hidden => type :: .lang TypeName.className :: set.parameters scope
          | .field, .hidden => [type]
          | _, .exposed => []
  | callback bean _ visibility =>
      match scope.typeOf? bean with
      | none => []
      | some type =>
          if visibility = .hidden then [type, .lang TypeName.className] else []
  | supplier .. => []

theorem named_reflected (naming : Naming) (type : TypeUse) (parameters : List TypeName) :
    (type :: (naming.classArray parameters).element ::
        (naming.classArray parameters).types).map TypeUse.type =
      type.type :: .lang TypeName.className :: parameters := by
  rw [List.map_cons, List.map_cons, types_classArray]
  rfl

/-- Which types the statements of a step name does not depend on how they are written. -/
theorem named_statements (naming : Naming) (scope : Scope) (step : Step) :
    ((step.statements naming scope).flatMap Statement.named).map TypeUse.type =
      step.named scope := by
  cases step with
  | literal bean value =>
      rfl
  | creation made =>
      rw [statements, Creation.statement, named]
      cases made.visibility with
      | exposed =>
          rfl
      | hidden =>
          rw [List.flatMap_cons, List.flatMap_singleton, Statement.named, Statement.named,
            List.append_nil]
          exact named_reflected naming.claimed _ _
  | property set =>
      rw [statements, named]
      cases scope.typeOf? set.bean with
      | none =>
          rfl
      | some type =>
          rw [Option.toList_some, List.map_singleton, PropertyValue.statement,
            List.flatMap_singleton]
          cases set.injection with
          | setter =>
              cases set.visibility with
              | exposed =>
                  rfl
              | hidden =>
                  exact named_reflected naming.claimed _ _
          | field =>
              cases set.visibility <;> rfl
  | callback bean method visibility =>
      rw [statements, named]
      cases scope.typeOf? bean with
      | none =>
          rfl
      | some type =>
          cases visibility with
          | exposed =>
              rfl
          | hidden =>
              exact named_reflected naming.claimed _ _
  | supplier bean type =>
      rfl

end Step

/-! ## Types that cannot be named -/

namespace Scope

/-- Whether the types of all beans can be named. -/
def IsNameable (scope : Scope) (application : TypeName) : Prop :=
  ∀ bean type, scope.typeOf? bean = some type → type.IsNameable application

/-- The types of new beans are those that are checked, or those of literals. -/
theorem IsNameable.after {scope : Scope} {application : TypeName}
    (nameable : scope.IsNameable application) {step : Step}
    (wellFormed : step.WellFormed application scope) :
    (scope.after step).IsNameable application := by
  refine meant_of_typeOf?_after_of_defined nameable fun name record defined => ?_
  cases step with
  | literal bean value =>
      obtain ⟨-, rfl⟩ := Prod.mk.inj (Option.some.inj defined)
      exact (value.isNameable_type application).2
  | creation made =>
      obtain ⟨-, rfl⟩ := Prod.mk.inj (Option.some.inj defined)
      exact made.isNameable_of_wellFormed wellFormed
  | property set =>
      cases defined
  | callback bean method visibility =>
      cases defined
  | supplier bean type =>
      cases defined

end Scope

section

variable {application : TypeName} {scope : Scope} {type : TypeName}

theorem Argument.isNameable_of_typeIn? (nameable : scope.IsNameable application)
    {argument : Argument} (typed : argument.typeIn? scope = some type) :
    type.IsNameable application := by
  cases argument with
  | value literal =>
      obtain rfl := Option.some.inj typed
      exact (literal.isNameable_type application).1
  | reference bean =>
      exact nameable bean type typed

/-- Parameter types that are not declared are those of arguments. -/
theorem Creation.mem_parameters_iff (nameable : scope.IsNameable application)
    (unnameable : ¬ type.IsNameable application) (made : Creation) :
    type ∈ made.parameters scope ↔ type ∈ (Step.creation made).declaredParameters := by
  rw [parameters, Step.declaredParameters]
  cases made.parameterTypes with
  | none =>
      refine iff_of_false (fun member => ?_) List.not_mem_nil
      obtain ⟨argument, -, typed⟩ := List.mem_filterMap.1 member
      exact unnameable (argument.isNameable_of_typeIn? nameable typed)
  | some types =>
      rfl

theorem PropertyValue.mem_parameters_iff (nameable : scope.IsNameable application)
    (unnameable : ¬ type.IsNameable application) (set : PropertyValue) :
    type ∈ set.parameters scope ↔ type ∈ (Step.property set).declaredParameters := by
  rw [parameters, Step.declaredParameters, Option.mem_toList, Option.mem_toList]
  cases set.parameterType with
  | none =>
      refine iff_of_false (fun typed => ?_) (by simp)
      exact unnameable (set.value.isNameable_of_typeIn? nameable typed)
  | some declared =>
      rfl

namespace Step

/-- A type that cannot be named is named by a step that passes it as a declared parameter
type. -/
theorem mem_named_iff (nameable : scope.IsNameable application)
    (unnameable : ¬ type.IsNameable application) {step : Step}
    (wellFormed : step.WellFormed application scope) :
    type ∈ step.named scope ↔
      step.passesParameters = true ∧ type ∈ step.declaredParameters := by
  have notClass : type ≠ .lang TypeName.className := by
    rintro rfl
    exact unnameable (TypeName.isNameable_of_package application (by decide) (by decide))
  cases step with
  | literal bean value =>
      refine iff_of_false ?_ (by simp [declaredParameters])
      rw [named, List.mem_singleton]
      rintro rfl
      exact unnameable (value.isNameable_type application).2
  | creation made =>
      have notMade : type ≠ made.type := by
        rintro rfl
        exact unnameable (made.isNameable_of_wellFormed wellFormed)
      have parameters := made.mem_parameters_iff nameable unnameable
      rw [named, passesParameters, List.mem_cons, or_iff_right notMade]
      cases made.visibility with
      | exposed =>
          simp
      | hidden =>
          simp [notClass, parameters]
  | property set =>
      obtain ⟨owner, found⟩ := wellFormed.object.typeOf?_eq
      have notOwner : type ≠ owner := by
        rintro rfl
        exact unnameable (nameable set.bean _ found)
      have parameters := set.mem_parameters_iff nameable unnameable
      rw [named, passesParameters, found]
      cases set.injection <;> cases set.visibility <;> simp [notOwner, notClass, parameters]
  | callback bean method visibility =>
      obtain ⟨owner, found⟩ := wellFormed.1.typeOf?_eq
      have notOwner : type ≠ owner := by
        rintro rfl
        exact unnameable (nameable bean _ found)
      rw [named, found]
      cases visibility <;> simp [notOwner, notClass, declaredParameters]
  | supplier bean type =>
      simp [named, declaredParameters]

/-- A type that cannot be named claims its simple name for a step that declares it. -/
theorem mem_typesOf_iff (unnameable : ¬ type.IsNameable application) {step : Step}
    (wellFormed : step.WellFormed application scope) :
    type ∈ Draft.typesOf step ↔ type ∈ step.declaredParameters := by
  have notLiteral : ∀ arguments, type ∉ Draft.literalTypes arguments := by
    intro arguments member
    obtain ⟨argument, -, typed⟩ := List.mem_filterMap.1 member
    cases argument with
    | value literal =>
        obtain rfl := Option.some.inj typed
        exact unnameable (literal.isNameable_type application).1
    | reference bean =>
        cases typed
  cases step with
  | literal bean value =>
      refine iff_of_false ?_ List.not_mem_nil
      rw [Draft.typesOf, List.mem_singleton]
      rintro rfl
      exact unnameable (value.isNameable_type application).2
  | creation made =>
      have notMade : type ≠ made.type := by
        rintro rfl
        exact unnameable (made.isNameable_of_wellFormed wellFormed)
      simp [Draft.typesOf, declaredParameters, notMade, notLiteral]
  | property set =>
      simp [Draft.typesOf, declaredParameters, notLiteral]
  | callback bean method visibility =>
      rfl
  | supplier bean type =>
      rfl

end Step

/-- The types that the statements of steps in turn name, apart from the helper. -/
def Scope.named (scope : Scope) : List Step → List TypeName
  | [] => []
  | step :: rest => step.named scope ++ (scope.after step).named rest

theorem Naming.named_replay (naming : Naming) (scope : Scope) (steps : List Step) :
    ((naming.replay scope steps).flatMap Statement.named).map TypeUse.type =
      scope.named steps := by
  induction steps generalizing naming scope with
  | nil =>
      rfl
  | cons step rest inductionHypothesis =>
      rw [replay, List.flatMap_append, List.map_append, Step.named_statements,
        inductionHypothesis, Scope.named]

theorem Scope.mem_named_iff (nameable : scope.IsNameable application)
    (unnameable : ¬ type.IsNameable application) {steps : List Step}
    (admitted : scope.Admits application steps) :
    type ∈ scope.named steps ↔
      ∃ step ∈ steps, step.passesParameters = true ∧ type ∈ step.declaredParameters := by
  induction steps generalizing scope with
  | nil =>
      simp [named]
  | cons step rest inductionHypothesis =>
      obtain ⟨wellFormed, restAdmitted⟩ := admitted
      rw [named, List.mem_append, Step.mem_named_iff nameable unnameable wellFormed,
        inductionHypothesis (nameable.after wellFormed) restAdmitted]
      simp only [List.mem_cons, exists_eq_or_imp]

end

def Java.SourceUnit.imported (unit : SourceUnit) : List TypeName :=
  unit.code.filterMap Code.imported?

namespace Java.Initializer

/-- The types that an initializer writes before its statements. -/
def header : List TypeName :=
  [initializerType, contextType, .lang TypeName.overrideName, beanFactoryType]

/-- The occurrences of types in an initializer, apart from the helper. -/
def named (initializer : Initializer) : List TypeUse :=
  header.map initializer.imports.use ++ initializer.statements.flatMap Statement.named

theorem isNameable_header (application : TypeName) :
    ∀ type ∈ header, type.IsNameable application := by
  have table : ∀ type ∈ header, type.package ≠ [] ∧ '$' ∉ type.simple.text.toList := by
    decide
  intro type member
  obtain ⟨packaged, notNested⟩ := table type member
  exact TypeName.isNameable_of_package application packaged notNested

end Java.Initializer

namespace Graph

variable (graph : Graph) (context : Context)

theorem mem_namedTypes_iff (wellFormed : graph.HasWellFormedSteps) {type : TypeName}
    (unnameable : ¬ type.IsNameable graph.application) :
    type ∈ Draft.namedTypes graph.steps ↔
      ∃ step ∈ graph.steps, type ∈ step.declaredParameters := by
  have notContainer : type ∉ [beanFactoryType, initializerType, contextType] := by
    have written : [beanFactoryType, initializerType, contextType] ⊆ Initializer.header := by
      decide
    exact fun member => unnameable (Initializer.isNameable_header _ type (written member))
  rw [Draft.namedTypes, List.mem_append, or_iff_right notContainer, List.mem_flatMap]
  refine exists_congr fun step => and_congr_right fun member => ?_
  obtain ⟨earlier, later, parts⟩ := List.append_of_mem member
  exact Step.mem_typesOf_iff unnameable (wellFormed earlier step later parts)

/-- A type that source code cannot name is imported exactly when it is a declared parameter
type that owns its simple name and needs an import, and is written exactly when a hidden
step passes it as a parameter type that it declares. -/
theorem unnameable_types_are_declared_parameters {generated : Generated} {after : Context}
    (accepted : graph.generate context = (.ok generated, after)) :
    ∀ type, ¬ type.IsNameable graph.application →
      (type ∈ generated.initializer.source.imported ↔
        (∃ step ∈ graph.steps, type ∈ step.declaredParameters) ∧
          type ∈ generated.initializer.imports.owners ∧
          generated.initializer.imports.needsImport type = true) ∧
      (type ∈ generated.initializer.named.map TypeUse.type ↔
        ∃ step ∈ graph.steps,
          step.passesParameters = true ∧ type ∈ step.declaredParameters) := by
  obtain ⟨wellFormed, rfl, -⟩ := graph.of_generate_eq_ok context accepted
  intro type unnameable
  constructor
  · have imported := (graph.generatedIn context).initializer.mem_imported [] type
    refine imported.trans (iff_and_self.2 fun both => ?_)
    -- An owner has claimed its simple name before the first step, and the initializer
    -- itself needs no import.
    have early := ((graph.agrees_imports_namingIn context).imported type).1 (imported.2 both)
    rcases (graph.serves_namingIn context).known type early.1 with isInitializer | named
    · have needed := early.2
      rw [isInitializer, Imports.needsImport, unit_imports_namingIn] at needed
      simp at needed
    · exact (graph.mem_namedTypes_iff wellFormed.steps unnameable).1 named
  · have notHeader : type ∉ Initializer.header := fun member =>
      unnameable (Initializer.isNameable_header _ type member)
    have nothing : Scope.IsNameable [] graph.application := by
      intro bean type known
      cases known
    rw [Initializer.named, List.map_append, List.mem_append,
      graph.statements_generatedIn context wellFormed.steps, Naming.named_replay]
    refine (or_iff_right notHeader).trans ?_
    exact Scope.mem_named_iff nothing unnameable
      (graph.hasWellFormedSteps_iff.1 wellFormed.steps)

theorem cacheGraph_types_are_nameable :
    ∃ generated after, cacheGraph.generate .empty = (.ok generated, after) ∧
      (∀ type ∈ generated.initializer.source.imported,
        type.IsNameable cacheGraph.application) ∧
      ∀ use ∈ generated.initializer.named, use.type.IsNameable cacheGraph.application := by
  obtain ⟨contributed, -, accepted⟩ :=
    cacheGraph.generate_of_wellFormed .empty cacheGraph_wellFormed
  have undeclared : ∀ step ∈ cacheGraph.steps, step.declaredParameters = [] := by
    decide
  have only := unnameable_types_are_declared_parameters cacheGraph .empty accepted
  refine ⟨_, _, accepted, fun type member => ?_, fun use member => ?_⟩
  · by_contra unnameable
    obtain ⟨⟨step, stepMember, declared⟩, -⟩ := (only type unnameable).1.1 member
    rw [undeclared step stepMember] at declared
    cases declared
  · by_contra unnameable
    obtain ⟨step, stepMember, -, declared⟩ :=
      (only use.type unnameable).2.1 (List.mem_map_of_mem member)
    rw [undeclared step stepMember] at declared
    cases declared

def nestedType : TypeName :=
  ⟨[{ text := "com" }, { text := "other" }], { text := "Outer$Inner" }⟩

/-- A graph that declares a nested type for the parameter of a hidden constructor. -/
def nestingGraph : Graph where
  application := ⟨[{ text := "com" }, { text := "acme" }], { text := "App" }⟩
  steps :=
    [.creation ⟨"cache", ⟨[{ text := "com" }, { text := "acme" }], { text := "Cache" }⟩,
      [.value (.text "x")], some [nestedType], .hidden⟩]
  contributions := []

theorem nestingGraph_wellFormed : nestingGraph.WellFormed where
  steps := nestingGraph.hasWellFormedSteps_iff.2 (by decide +kernel)
  contributions := by decide +kernel

/-- The nested type is imported and written as a class. -/
theorem nestingGraph_names_nested_type :
    ∃ generated after, nestingGraph.generate .empty = (.ok generated, after) ∧
      ¬ nestedType.IsNameable nestingGraph.application ∧
      nestedType ∈ generated.initializer.source.imported ∧
      nestedType ∈ generated.initializer.named.map TypeUse.type := by
  obtain ⟨contributed, -, accepted⟩ :=
    nestingGraph.generate_of_wellFormed .empty nestingGraph_wellFormed
  refine ⟨_, _, accepted, by decide, ?_, by decide +kernel⟩
  refine ((nestingGraph.generatedIn .empty).initializer.mem_imported [] nestedType).2 ?_
  decide +kernel

end Graph

end AheadOfTime
