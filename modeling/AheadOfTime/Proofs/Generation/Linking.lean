import AheadOfTime.Proofs.Generation.Capture
import AheadOfTime.Proofs.Generation.HelperMethods
import AheadOfTime.Proofs.Java.Writer.Classes

/-!
# How generated classes fit together

The helper comes with an initializer that calls it, and declares what is called.  A call
names the helper unless a variable captures it, or another type has taken the helper's
simple name: then a helper without a package cannot be named at all, and the first package
of another must not be called like a type in scope.
-/

namespace AheadOfTime

open Java

namespace Java

/-- The simple names of the types in scope in a source file, `java.lang` apart. -/
def Environment.scope (environment : Environment) : List Identifier :=
  (environment.imported ++ environment.peers).map TypeName.simple

/-- Whether a name in full begins like one of the types in scope, so that the rest of it is
looked up among the members of that type. -/
def Obscured (scope : List Identifier) (text : String) : Prop :=
  '.' ∈ text.toList ∧ leadingIdentifier text ∈ scope.map Identifier.text

/-- Whether a type that is written before a call is read as that type.  A variable comes
before a type and a type before a package, and there may be others in scope than the types
that the file imports and its peers. -/
structure Initializer.CallNames (initializer : Initializer) (environment : Environment)
    (others : List Identifier) (use : TypeUse) : Prop where
  uncaptured : ¬initializer.Captures use
  unobscured : ¬Obscured (environment.scope ++ others) use.spelling
  read : environment.read? use.spelling = some use.type

theorem not_obscured_simple (scope : List Identifier) (simple : Identifier) :
    ¬Obscured scope simple.text :=
  fun obscured => simple.dot_not_mem obscured.1

theorem obscured_canonical_iff {scope : List Identifier} {type : TypeName} {first : Identifier}
    {rest : List Identifier} (package : type.package = first :: rest) :
    Obscured scope type.canonical ↔ first ∈ scope := by
  have packaged : type.package ≠ [] := by
    rw [package]
    exact List.cons_ne_nil first rest
  have dot : '.' ∈ type.canonical.toList := by
    have parts : TypeName.dotted type.package ++ "." ++ type.simple.text = type.canonical :=
      TypeName.dotted_append_simple packaged type.simple
    rw [← parts, String.toList_append, String.toList_append]
    exact List.mem_append_left _ (List.mem_append_right _ List.mem_cons_self)
  rw [Obscured, leadingIdentifier_canonical package, and_iff_right dot, List.mem_map]
  constructor
  · rintro ⟨identifier, member, same⟩
    rwa [← Identifier.ext same]
  · exact fun member => ⟨first, member, rfl⟩

end Java

namespace Graph

variable (graph : Graph) (context : Context)

/-- The ways in which a call does not name the helper, written by the given imports where
the given types are in scope: a variable captures the call; or the helper's simple name is
another type's, and it has no package, or one that begins like a type in scope. -/
inductive HelperLost (imports : Imports) (scope : List Identifier) (helper : TypeName) : Prop where
  | captured (isCaptured : graph.HelperCaptured imports helper)
  | displaced (unpackaged : graph.application.package = [])
      (lost : imports.ownerOf? helper.simple ≠ some helper)
  | obscured (lost : imports.ownerOf? helper.simple ≠ some helper) {first : Identifier}
      {rest : List Identifier} (package : graph.application.package = first :: rest)
      (member : first ∈ scope)

theorem obscured_helperUse_iff (scope : List Identifier) :
    Obscured scope (graph.helperUse context).spelling ↔
      (graph.namingIn context).claimed.imports.ownerOf?
          (graph.namingIn context).helper.simple ≠ some (graph.namingIn context).helper ∧
        ∃ first rest, graph.application.package = first :: rest ∧ first ∈ scope := by
  have package := graph.package_helper context
  by_cases owned : (graph.namingIn context).claimed.imports.ownerOf?
      (graph.namingIn context).helper.simple = some (graph.namingIn context).helper
  · rw [graph.spelling_helperUse_of_owned context owned]
    exact iff_of_false (not_obscured_simple scope _) fun lost => lost.1 owned
  · rw [graph.spelling_helperUse_of_lost context owned, and_iff_right owned]
    cases parts : graph.application.package with
    | nil =>
        rw [parts] at package
        rw [eq_unpackaged package, canonical_unpackaged]
        exact iff_of_false (not_obscured_simple scope _) (by simp)
    | cons first rest =>
        rw [parts] at package
        rw [obscured_canonical_iff package]
        simp

/-- The helper is read as itself unless it has no package and its simple name is
another type's. -/
theorem read?_helperUse_iff (hidden : graph.steps.any Step.isHidden = true) :
    (graph.environmentIn context (graph.generatedIn context).initializer.source).read?
        (graph.helperUse context).spelling = some (graph.namingIn context).helper ↔
      ¬(graph.application.package = [] ∧
        (graph.namingIn context).claimed.imports.ownerOf?
          (graph.namingIn context).helper.simple ≠ some (graph.namingIn context).helper) := by
  have package := graph.package_helper context
  have writes : (graph.namingIn context).Writes (graph.Meant context)
      (graph.steps.any Step.isHidden) (graph.helperUse context) :=
    .late hidden (.inr rfl) rfl
  refine (graph.read?_written context writes).trans (not_congr ?_)
  rw [imports_generatedIn, if_pos hidden]
  constructor
  · rintro (⟨-, -, isKeyword⟩ | ⟨noPackage, -, lost⟩ |
      ⟨-, ofLang, member, sameSimple, different⟩)
    · exact absurd isKeyword (Bool.eq_false_iff.1 (graph.not_isPrimitive_helper context []))
    · exact ⟨package.symm.trans noPackage, lost⟩
    · -- Peers that hide are in the helper's package, where it has its simple name alone.
      refine absurd ?_ different
      rcases (graph.mem_hiders_iff context _).1 member with rfl | ⟨-, isHelper⟩
      · exact (TypeName.mk.injEq _ _ _ _).mpr ⟨package.symm, sameSimple⟩
      · exact isHelper
  · rintro ⟨unpackaged, lost⟩
    exact .unpackaged (package.trans unpackaged) (graph.not_isPrimitive_helper context _) lost

theorem callNames_helperUse_iff (hidden : graph.steps.any Step.isHidden = true)
    (others : List Identifier) :
    (graph.generatedIn context).initializer.CallNames
        (graph.environmentIn context (graph.generatedIn context).initializer.source) others
        (graph.helperUse context) ↔
      ¬graph.HelperLost (graph.namingIn context).claimed.imports
        ((graph.environmentIn context
          (graph.generatedIn context).initializer.source).scope ++ others)
        (graph.namingIn context).helper := by
  have captures := graph.captures_helperUse_iff context
  have obscured := graph.obscured_helperUse_iff context
    ((graph.environmentIn context
      (graph.generatedIn context).initializer.source).scope ++ others)
  have read := graph.read?_helperUse_iff context hidden
  constructor
  · rintro ⟨uncaptured, unobscured, isRead⟩
    rintro (isCaptured | ⟨unpackaged, lost⟩ | ⟨lost, package, member⟩)
    · exact uncaptured (captures.2 isCaptured)
    · exact read.1 isRead ⟨unpackaged, lost⟩
    · exact unobscured (obscured.2 ⟨lost, _, _, package, member⟩)
  · intro kept
    refine ⟨fun isCaptured => kept (.captured (captures.1 isCaptured)), fun isObscured => ?_,
      read.2 fun displaced => kept (.displaced displaced.1 displaced.2)⟩
    obtain ⟨lost, first, rest, package, member⟩ := obscured.1 isObscured
    exact kept (.obscured lost package member)

/-- What a call of the helper in an initializer is like: it is in the text of its statement,
it is that of a method that another of the generated classes declares, and it names this
class unless the name is lost. -/
structure LinkedCall (generated : Generated) (statement : Statement) (use : TypeUse)
    (method : String) : Prop where
  written : ∃ front arguments,
    statement.text = front ++ Statement.helperCall use method arguments ++ ";"
  declared : ∃ unit ∈ generated.units.tail, unit.name = use.type ∧ method ∈ unit.staticMethods
  names_iff : ∀ others,
    generated.initializer.CallNames
        (generated.initializer.source.environment (generated.existing graph)) others use ↔
      ¬graph.HelperLost generated.initializer.imports
        ((generated.initializer.source.environment (generated.existing graph)).scope ++ others)
        use.type

/-- What a class that supports an initializer is like: it is in the same package under
another name, declares the methods that hidden steps call, and imports the types of
reflection that these methods work with. -/
structure Supports (initializer : Initializer) (unit : SourceUnit) : Prop where
  package : unit.name.package = initializer.name.package
  different : unit.name ≠ initializer.name
  declares : ∀ method, method ∈ unit.staticMethods ↔
    ∃ step ∈ graph.steps, step.helperMethod? = some method
  imports : ∀ type, type ∈ unit.imported ↔
    ∃ method ∈ unit.staticMethods, Helper.reflected? method = some type

/-- How the classes that are generated for a graph fit together. -/
structure Linked (generated : Generated) : Prop where
  alone : graph.steps.any Step.isHidden = false → generated.units = [generated.initializer.source]
  supported : graph.steps.any Step.isHidden = true →
    ∃ unit, generated.units = [generated.initializer.source, unit] ∧
      graph.Supports generated.initializer unit
  called : (generated.initializer.statements.filterMap Statement.helperCall?).map Prod.snd =
    graph.steps.filterMap Step.helperMethod?
  calls : ∀ statement ∈ generated.initializer.statements, ∀ use method,
    statement.helperCall? = some (use, method) →
      graph.LinkedCall generated statement use method
  wellWritten : ∀ unit ∈ generated.units, unit.WellWritten

theorem exists_helper_of_isHidden (hidden : graph.steps.any Step.isHidden = true) :
    ∃ helper, (graph.generatedIn context).helper = some helper := by
  have named := graph.helper_generatedIn context
  rw [if_pos hidden] at named
  obtain ⟨helper, found, -⟩ := Option.map_eq_some_iff.1 named
  exact ⟨helper, found⟩

theorem units_of_helper {generated : Generated} {helper : Helper}
    (found : generated.helper = some helper) :
    generated.units = [generated.initializer.source, helper.source] := by
  rw [Generated.units, found]
  rfl

theorem supports_helper {helper : Helper}
    (found : (graph.generatedIn context).helper = some helper) :
    graph.Supports (graph.generatedIn context).initializer helper.source := by
  obtain ⟨sameName, -⟩ := graph.of_helper_generatedIn context found
  have name : helper.source.name = (graph.namingIn context).helper := sameName
  have unissued := (graph.fresh_helperName context).unissued
  refine {
    package := ?_
    different := ?_
    declares := graph.mem_staticMethods_iff context found
    imports := helper.mem_imported_iff }
  · rw [name, package_helper]
    exact (graph.package_initializerName context).symm
  · rw [name]
    intro same
    exact unissued (List.mem_append_right _ (List.mem_singleton.2 same))

theorem linkedCall (wellFormed : graph.HasWellFormedSteps) {statement : Statement}
    {use : TypeUse} {method : String}
    (member : statement ∈ (graph.generatedIn context).initializer.statements)
    (calls : statement.helperCall? = some (use, method)) :
    graph.LinkedCall (graph.generatedIn context) statement use method := by
  obtain ⟨rfl, step, stepMember, stepCalls⟩ :=
    graph.exists_hidden_of_helperCall? context wellFormed member calls
  have hidden := graph.isHidden_of_helperMethod? stepMember stepCalls
  obtain ⟨-, imports⟩ := graph.claimed_of_helperMethod? context stepMember stepCalls
  obtain ⟨helper, found⟩ := graph.exists_helper_of_isHidden context hidden
  obtain ⟨sameName, -⟩ := graph.of_helper_generatedIn context found
  refine {
    written := Statement.text_of_helperCall? calls
    declared := ⟨helper.source, ?_, sameName, ?_⟩
    names_iff := fun others => ?_ }
  · rw [units_of_helper found]
    exact List.mem_singleton.2 rfl
  · exact (graph.mem_staticMethods_iff context found method).2 ⟨step, stepMember, stepCalls⟩
  · rw [imports]
    exact graph.callNames_helperUse_iff context hidden others

theorem wellWritten_units (wellFormed : graph.HasWellFormedSteps) :
    ∀ unit ∈ (graph.generatedIn context).units, unit.WellWritten := by
  refine List.forall_mem_cons.2 ⟨?_, fun unit member => ?_⟩
  · exact Initializer.wellWritten (graph.plainNames_generatedIn context wellFormed)
  · obtain ⟨helper, -, rfl⟩ := Option.map_eq_some_iff.1 (Option.mem_toList.1 member)
    exact helper.wellWritten

/-- The helper comes when a step is hidden, declares what is called, and is named by each
call unless its name is lost; both classes are well written. -/
theorem generated_classes_are_linked {generated : Generated} {after : Context}
    (accepted : graph.generate context = (.ok generated, after)) : graph.Linked generated := by
  obtain ⟨wellFormed, rfl, -⟩ := graph.of_generate_eq_ok context accepted
  refine {
    alone := fun exposed => ?_
    supported := fun hidden => ?_
    called := ?_
    calls := fun statement member use method calls =>
      graph.linkedCall context wellFormed.steps member calls
    wellWritten := graph.wellWritten_units context wellFormed.steps }
  · have unnamed := graph.helper_generatedIn context
    rw [exposed, if_neg Bool.false_ne_true, Option.map_eq_none_iff] at unnamed
    rw [Generated.units, unnamed]
    rfl
  · obtain ⟨helper, found⟩ := graph.exists_helper_of_isHidden context hidden
    exact ⟨helper.source, units_of_helper found, graph.supports_helper context found⟩
  · rw [graph.helperCalls_generatedIn context wellFormed.steps, List.map_map]
    exact List.map_id _

theorem cacheGraph_calls_name_helper :
    ∃ generated after, cacheGraph.generate .empty = (.ok generated, after) ∧
      (∃ unit, generated.units = [generated.initializer.source, unit] ∧
        "instantiate" ∈ unit.staticMethods ∧ "invoke" ∈ unit.staticMethods ∧
        "setField" ∉ unit.staticMethods) ∧
      ∀ statement ∈ generated.initializer.statements, ∀ use method,
        statement.helperCall? = some (use, method) → ∀ others,
          generated.initializer.CallNames
            (generated.initializer.source.environment (generated.existing cacheGraph)) others
            use := by
  obtain ⟨contributed, -, accepted⟩ :=
    cacheGraph.generate_of_wellFormed .empty cacheGraph_wellFormed
  have linked := generated_classes_are_linked cacheGraph .empty accepted
  have owned : ∀ call ∈ (cacheGraph.generatedIn .empty).initializer.statements.filterMap
      Statement.helperCall?,
      (cacheGraph.generatedIn .empty).initializer.imports.ownerOf? call.1.type.simple =
          some call.1.type ∧
        ∀ bean ∈ definedBeans cacheGraph.steps,
          Locals.baseName bean ≠ call.1.type.simple.text := by
    decide +kernel
  refine ⟨_, _, accepted, ?_, fun statement member use method calls others => ?_⟩
  · obtain ⟨unit, units, supports⟩ := linked.supported (by decide)
    exact ⟨unit, units, (supports.declares _).2 (by decide), (supports.declares _).2 (by decide),
      fun declared => absurd ((supports.declares _).1 declared) (by decide)⟩
  · obtain ⟨isOwned, uncalled⟩ :=
      owned (use, method) (List.mem_filterMap.2 ⟨statement, member, calls⟩)
    refine ((linked.calls statement member use method calls).names_iff others).2 ?_
    rintro ((⟨-, beanMember, called⟩ | ⟨lost, -, -⟩) | ⟨-, lost⟩ | ⟨lost, -, -⟩)
    · exact uncalled _ beanMember called
    · exact lost isOwned
    · exact lost isOwned
    · exact lost isOwned

/-- A type that is called like the first helper of an application `App`. -/
def namesakeType : TypeName :=
  ⟨[{ text := "com" }, { text := "other" }], { text := "App__ReflectiveAccess" }⟩

/-- A graph of the default package with a bean of a type that is called like the helper. -/
def displacingGraph : Graph where
  application := ⟨[], { text := "App" }⟩
  steps :=
    [.creation ⟨"other", namesakeType, [], none, .exposed⟩,
      .creation ⟨"cache", ⟨[{ text := "com" }, { text := "acme" }], { text := "Cache" }⟩, [], none,
        .hidden⟩]
  contributions := []

theorem displacingGraph_wellFormed : displacingGraph.WellFormed where
  steps := displacingGraph.hasWellFormedSteps_iff.2 (by decide +kernel)
  contributions := by decide +kernel

/-- The helper is written as its namesake, which the initializer imports. -/
theorem displacingGraph_calls_namesake :
    ∃ generated after, displacingGraph.generate .empty = (.ok generated, after) ∧
      ∃ statement ∈ generated.initializer.statements, ∃ use,
        statement.helperCall? = some (use, "instantiate") ∧
        (∃ unit ∈ generated.units.tail, unit.name = use.type) ∧
        (generated.initializer.source.environment (generated.existing displacingGraph)).read?
            use.spelling = some namesakeType ∧
        use.type ≠ namesakeType := by
  obtain ⟨contributed, -, accepted⟩ :=
    displacingGraph.generate_of_wellFormed .empty displacingGraph_wellFormed
  refine ⟨_, _, accepted, _, List.mem_cons_of_mem _ (List.mem_cons_of_mem _ List.mem_cons_self),
    displacingGraph.helperUse .empty, rfl, by decide +kernel, ?_, by decide +kernel⟩
  have meaning := Environment.meaning_unpackaged
    (displacingGraph.agrees_claimed_namingIn .empty (by decide))
    (displacingGraph.serves_claimed_namingIn .empty)
    (displacingGraph.not_isPrimitive_helper .empty [])
  have owned : (displacingGraph.namingIn .empty).claimed.imports.ownerOf?
      (displacingGraph.namingIn .empty).helper.simple = some namesakeType := by
    decide +kernel
  have needed : (displacingGraph.namingIn .empty).claimed.imports.needsImport namesakeType =
      true := by
    decide +kernel
  have written : (displacingGraph.namingIn .empty).claimed.imports.written
      (displacingGraph.namingIn .empty).helper =
        .unpackaged (displacingGraph.namingIn .empty).helper.simple := by
    decide +kernel
  rw [owned, Option.filter_some_pos needed, Option.getD_some, ← written] at meaning
  exact (Imports.read?_spelling _ _ _).trans (congrArg some meaning)

end Graph

end AheadOfTime
