import AheadOfTime.Proofs.Generation.Atomicity
import AheadOfTime.Proofs.Generation.Fidelity
import AheadOfTime.Proofs.Generation.Writing
import AheadOfTime.Proofs.Java.Occurrences

/-!
# The spelling of types in generated classes

Every occurrence of a type in a generated class is read as the type that is meant, save
for those that are misread: the peers that can hide a type of `java.lang` are the
application, which claims no simple name unless a step names it, and the helper, which
claims its own only at the first hidden step.
-/

namespace AheadOfTime

open Java

namespace Draft

/-- The types that claim simple names before the first step, apart from the initializer:
those of the container, and those that steps name. -/
def namedTypes (steps : List Step) : List TypeName :=
  [beanFactoryType, initializerType, contextType] ++ steps.flatMap typesOf

theorem unit_importsFor (name : TypeName) (steps : List Step) :
    (importsFor name steps).unit = name := by
  rw [importsFor, Imports.unit_claimAll, Imports.unit_claimAll, Imports.unit_claimAll]
  rfl

theorem serves_importsFor (name : TypeName) (steps : List Step) :
    (importsFor name steps).Serves fun type => type = name ∨ type ∈ namedTypes steps := by
  refine ((((Imports.Serves.start name).claimAll _).claimAll _).claimAll _).of_iff fun type => ?_
  simp only [namedTypes, List.mem_filter, List.mem_append, Bool.not_eq_true']
  cases type.isImplicit <;> simp [or_assoc, or_comm]

end Draft

namespace Generated

/-- The types that exist beside generated classes, apart from those of `java.lang`: the
application, the classes, the types of the container and those that steps name. -/
def existing (generated : Generated) (graph : Graph) : List TypeName :=
  graph.application :: generated.units.map SourceUnit.name ++ Draft.namedTypes graph.steps

/-- The types that exist but may not have claimed their simple names before the first
step. -/
def hiders (generated : Generated) (graph : Graph) : List TypeName :=
  graph.application :: (generated.helper.map Helper.name).toList

end Generated

namespace Graph

variable (graph : Graph) (context : Context)

theorem imports_generatedIn :
    (graph.generatedIn context).initializer.imports =
      if graph.steps.any Step.isHidden then
        (graph.namingIn context).claimed.imports
      else
        (graph.namingIn context).imports :=
  (graph.startIn context).imports_afterAll graph.steps

theorem mem_existing_iff (type : TypeName) :
    type ∈ (graph.generatedIn context).existing graph ↔
      type = graph.application ∨ type = graph.initializerName context ∨
        graph.steps.any Step.isHidden = true ∧ type = (graph.namingIn context).helper ∨
          type ∈ Draft.namedTypes graph.steps := by
  have helper : (graph.namingIn context).helper = (graph.startIn context).helperName := rfl
  rw [Generated.existing, names_units_generatedIn, unitNames, helper]
  cases graph.steps.any Step.isHidden <;> simp

theorem mem_hiders_iff (type : TypeName) :
    type ∈ (graph.generatedIn context).hiders graph ↔
      type = graph.application ∨
        graph.steps.any Step.isHidden = true ∧ type = (graph.namingIn context).helper := by
  have helper : (graph.namingIn context).helper = (graph.startIn context).helperName := rfl
  rw [Generated.hiders, helper_generatedIn, helper]
  cases graph.steps.any Step.isHidden <;> simp

/-- Whether a type has claimed its simple name before the first step. -/
def Claims (type : TypeName) : Prop :=
  type = graph.initializerName context ∨ type ∈ Draft.namedTypes graph.steps

theorem serves_namingIn : (graph.namingIn context).imports.Serves (graph.Claims context) :=
  Draft.serves_importsFor (graph.initializerName context) graph.steps

theorem serves_claimed_namingIn :
    (graph.namingIn context).claimed.imports.Serves fun type =>
      type = (graph.namingIn context).helper ∨ graph.Claims context type :=
  (graph.serves_namingIn context).claim (graph.namingIn context).helper

theorem package_initializerName :
    (graph.initializerName context).package = graph.application.package :=
  (graph.fresh_initializerName context).package

theorem package_helper : (graph.namingIn context).helper.package = graph.application.package :=
  (graph.fresh_helperName context).package

theorem unit_imports_namingIn :
    (graph.namingIn context).imports.unit = graph.initializerName context :=
  Draft.unit_importsFor (graph.initializerName context) graph.steps

/-- What names in a class of a graph are looked up in. -/
def environmentIn (unit : SourceUnit) : Environment :=
  unit.environment ((graph.generatedIn context).existing graph)

theorem claims_or_hides {unit : SourceUnit} :
    ∀ peer ∈ (graph.environmentIn context unit).peers,
      graph.Claims context peer ∨ peer ∈ (graph.generatedIn context).hiders graph := by
  intro peer member
  rw [mem_hiders_iff, Claims]
  rcases (graph.mem_existing_iff context peer).1 (Environment.mem_peers.1 member).1 with
    isApplication | isInitializer | isHelper | named
  · exact .inr (.inl isApplication)
  · exact .inl (.inl isInitializer)
  · exact .inr (.inr isHelper)
  · exact .inl (.inr named)

theorem hiders_are_peers (unit : SourceUnit)
    (package : unit.name.package = graph.application.package) :
    ∀ hider ∈ (graph.generatedIn context).hiders graph,
      hider ∈ (graph.environmentIn context unit).peers := by
  intro hider member
  rw [Environment.mem_peers]
  have here : (graph.environmentIn context unit).package = graph.application.package := package
  rw [here, environmentIn, SourceUnit.environment, mem_existing_iff]
  rcases (graph.mem_hiders_iff context hider).1 member with rfl | ⟨hidden, rfl⟩
  · exact ⟨.inl rfl, rfl⟩
  · exact ⟨.inr (.inr (.inl ⟨hidden, rfl⟩)), graph.package_helper context⟩

/-- The imports of the initializer are those before the first step: the helper needs none,
and hides no type that needs one. -/
theorem agrees_imports_namingIn :
    (graph.environmentIn context (graph.generatedIn context).initializer.source).Agrees
      (graph.namingIn context).imports (graph.Claims context) where
  package := congrArg TypeName.package (graph.unit_imports_namingIn context).symm
  imported := by
    intro type
    rw [environmentIn, Initializer.mem_imported, imports_generatedIn]
    cases graph.steps.any Step.isHidden with
    | true =>
        refine (graph.serves_namingIn context).mem_imported_claim ?_ type
        rw [package_helper, unit_imports_namingIn, package_initializerName]
    | false =>
        exact Iff.rfl
  existing := by
    intro type claims
    rw [environmentIn, SourceUnit.environment, mem_existing_iff]
    rcases claims with isInitializer | named
    · exact .inr (.inl isInitializer)
    · exact .inr (.inr (.inr named))

theorem agrees_claimed_namingIn (hidden : graph.steps.any Step.isHidden = true) :
    (graph.environmentIn context (graph.generatedIn context).initializer.source).Agrees
      (graph.namingIn context).claimed.imports
      fun type => type = (graph.namingIn context).helper ∨ graph.Claims context type where
  package := by
    rw [Naming.claimed, Imports.unit_claim]
    exact (graph.agrees_imports_namingIn context).package
  imported := by
    intro type
    rw [environmentIn, Initializer.mem_imported, imports_generatedIn, if_pos hidden]
  existing := by
    intro type claims
    rcases claims with isHelper | claims
    · rw [environmentIn, SourceUnit.environment, mem_existing_iff]
      exact .inr (.inr (.inl ⟨hidden, isHelper⟩))
    · exact (graph.agrees_imports_namingIn context).existing type claims

/-! ## The initializer -/

/-- Whether a type is one that the classes of a graph may have to write. -/
def Meant (type : TypeName) : Prop :=
  type.isPrimitive = true ∨ graph.Claims context type ∨ type.package = TypeName.langPackage

theorem writes_use_initializer {type : TypeName} (isMeant : graph.Meant context type) :
    (graph.namingIn context).Writes (graph.Meant context) (graph.steps.any Step.isHidden)
      ((graph.generatedIn context).initializer.imports.use type) := by
  rw [imports_generatedIn]
  cases graph.steps.any Step.isHidden with
  | true =>
      exact .late rfl (.inl isMeant) rfl
  | false =>
      exact .early isMeant rfl

theorem writes_typeUses (wellFormed : graph.HasWellFormedSteps) :
    ∀ use ∈ (graph.generatedIn context).initializer.typeUses,
      (graph.namingIn context).Writes (graph.Meant context) (graph.steps.any Step.isHidden)
        use := by
  have named : ∀ type ∈ Draft.namedTypes graph.steps, graph.Meant context type :=
    fun type member => .inr (.inl (.inr member))
  have lang : ∀ simple, graph.Meant context (.lang simple) := fun simple => .inr (.inr rfl)
  have statements : (graph.generatedIn context).initializer.statements =
      (graph.namingIn context).replay [] graph.steps :=
    Draft.statements_afterAll (graph.hasWellFormedSteps_iff.1 wellFormed)
  have inStatements : ∀ use ∈
      (graph.generatedIn context).initializer.statements.flatMap Statement.types,
      (graph.namingIn context).Writes (graph.Meant context) (graph.steps.any Step.isHidden)
        use := by
    rw [statements]
    refine Naming.writes_replay lang (fun bean type known => by cases known) ?_
    intro step stepMember type typeMember
    apply named
    exact List.mem_append_right _ (List.mem_flatMap.2 ⟨step, stepMember, typeMember⟩)
  rw [Initializer.typeUses, List.forall_mem_append]
  refine ⟨?_, inStatements⟩
  simp only [List.forall_mem_cons]
  refine ⟨?_, ?_, ?_, ?_, List.forall_mem_nil _⟩
  · exact graph.writes_use_initializer context (named _ (by simp [Draft.namedTypes]))
  · exact graph.writes_use_initializer context (named _ (by simp [Draft.namedTypes]))
  · exact graph.writes_use_initializer context (lang _)
  · exact graph.writes_use_initializer context (named _ (by simp [Draft.namedTypes]))

theorem read?_written {use : TypeUse}
    (writes : (graph.namingIn context).Writes (graph.Meant context)
      (graph.steps.any Step.isHidden) use) :
    (graph.environmentIn context (graph.generatedIn context).initializer.source).read?
        use.spelling = some use.type ↔
      ¬use.Misread (graph.generatedIn context).initializer.imports
        ((graph.generatedIn context).hiders graph) := by
  have contained := graph.hiders_are_peers context
    (graph.generatedIn context).initializer.source (graph.package_initializerName context)
  have serves := graph.serves_namingIn context
  cases writes with
  | @early type isMeant written =>
      subst written
      have agrees := graph.agrees_imports_namingIn context
      refine (Environment.read?_use_eq_iff agrees serves isMeant).trans (not_congr ?_)
      refine Environment.misread_iff serves agrees.package (graph.claims_or_hides context)
        contained ?_
      -- The imports at the end differ by the claim of the helper, if at all.
      intro noPackage notPrimitive
      rw [imports_generatedIn]
      cases graph.steps.any Step.isHidden with
      | true =>
          have claims : graph.Claims context type := by
            rcases isMeant with isPrimitive | claims | ofLang
            · exact absurd isPrimitive (Bool.eq_false_iff.1 notPrimitive)
            · exact claims
            · exact absurd noPackage (packaged_of_lang ofLang)
          exact Imports.owned_claim_iff serves claims noPackage notPrimitive _
      | false =>
          exact Iff.rfl
  | @late type isHidden isMeant written =>
      subst written
      have agrees := graph.agrees_claimed_namingIn context isHidden
      have servesHelper := graph.serves_claimed_namingIn context
      have known : type.isPrimitive = true ∨
          (type = (graph.namingIn context).helper ∨ graph.Claims context type) ∨
            type.package = TypeName.langPackage := by
        rcases isMeant with (isPrimitive | claims | ofLang) | isHelper
        · exact .inl isPrimitive
        · exact .inr (.inl (.inr claims))
        · exact .inr (.inr ofLang)
        · exact .inr (.inl (.inl isHelper))
      refine (Environment.read?_use_eq_iff agrees servesHelper known).trans (not_congr ?_)
      refine Environment.misread_iff servesHelper agrees.package ?_ contained ?_
      · intro peer member
        exact (graph.claims_or_hides context peer member).imp_left .inr
      · intro _ _
        rw [imports_generatedIn, if_pos isHidden]

theorem of_helper_generatedIn {helper : Helper}
    (found : (graph.generatedIn context).helper = some helper) :
    helper.name = (graph.namingIn context).helper ∧
      helper.imports = (graph.namingIn context).claimed.imports := by
  have named := graph.helper_generatedIn context
  rw [found, Option.map_some] at named
  have sameImports : helper.imports = (graph.generatedIn context).initializer.imports := by
    obtain ⟨⟨name, uses⟩, -, rfl⟩ := Option.map_eq_some_iff.1 found
    rfl
  by_cases hidden : graph.steps.any Step.isHidden = true
  · rw [if_pos hidden] at named
    rw [imports_generatedIn, if_pos hidden] at sameImports
    exact ⟨Option.some.inj named, sameImports⟩
  · rw [if_neg hidden] at named
    cases named

theorem read?_helper {helper : Helper}
    (found : (graph.generatedIn context).helper = some helper) :
    ∀ use ∈ helper.typeUses,
      (graph.environmentIn context helper.source).read? use.spelling = some use.type ↔
        ¬use.Misread helper.imports ((graph.generatedIn context).hiders graph) := by
  obtain ⟨sameName, sameImports⟩ := graph.of_helper_generatedIn context found
  have package : helper.source.name.package = graph.application.package := by
    rw [← graph.package_helper context, ← sameName]
    rfl
  have unitPackage : (graph.environmentIn context helper.source).package =
      helper.imports.unit.package := by
    rw [sameImports, Naming.claimed, Imports.unit_claim, unit_imports_namingIn,
      package_initializerName]
    exact package
  have serves := graph.serves_claimed_namingIn context
  rw [← sameImports] at serves
  intro use member
  refine (helper.read?_typeUses _ use member).trans (not_congr ?_)
  obtain ⟨simple, -, rfl⟩ := List.mem_map.1 member
  refine Environment.misread_iff serves unitPackage ?_
    (graph.hiders_are_peers context helper.source package) fun _ _ => Iff.rfl
  intro peer peerMember
  exact (graph.claims_or_hides context peer peerMember).imp_left .inr

theorem readsUnlessMisread_initializer (wellFormed : graph.HasWellFormedSteps) :
    (graph.environmentIn context
      (graph.generatedIn context).initializer.source).ReadsUnlessMisread
        (graph.generatedIn context).initializer.imports
        ((graph.generatedIn context).hiders graph)
        (graph.generatedIn context).initializer.typeUses :=
  Environment.readsUnlessMisread fun use member =>
    graph.read?_written context (graph.writes_typeUses context wellFormed use member)

/-- Every occurrence of a type in a generated class is read as the type that is meant
unless it is misread, and occurrences of one spelling that are not misread are of one
type. -/
theorem generated_types_read_as_meant_unless_misread {generated : Generated} {after : Context}
    (accepted : graph.generate context = (.ok generated, after)) :
    (generated.initializer.source.environment (generated.existing graph)).ReadsUnlessMisread
        generated.initializer.imports (generated.hiders graph) generated.initializer.typeUses ∧
      ∀ helper ∈ generated.helper,
        (helper.source.environment (generated.existing graph)).ReadsUnlessMisread
          helper.imports (generated.hiders graph) helper.typeUses := by
  obtain ⟨wellFormed, rfl, -⟩ := graph.of_generate_eq_ok context accepted
  refine ⟨graph.readsUnlessMisread_initializer context wellFormed.steps, ?_⟩
  intro helper found
  exact Environment.readsUnlessMisread (graph.read?_helper context found)

theorem cacheGraph_types_read_as_meant :
    ∃ generated after, cacheGraph.generate .empty = (.ok generated, after) ∧
      ∀ use ∈ generated.initializer.typeUses,
        (generated.initializer.source.environment (generated.existing cacheGraph)).read?
          use.spelling = some use.type := by
  obtain ⟨contributed, -, accepted⟩ :=
    cacheGraph.generate_of_wellFormed .empty cacheGraph_wellFormed
  obtain ⟨reads, -⟩ := generated_types_read_as_meant_unless_misread cacheGraph .empty accepted
  have plain : ∀ use ∈ (cacheGraph.generatedIn .empty).initializer.typeUses,
      use.type.package ≠ [] ∧ (TypeName.unpackaged use.type.simple).isPrimitive = false ∧
        (use.type.package = TypeName.langPackage →
          ∀ hider ∈ (cacheGraph.generatedIn .empty).hiders cacheGraph,
            hider.simple = use.type.simple → hider = use.type) := by
    decide +kernel
  refine ⟨_, _, accepted, fun use member => (reads.read use member).2 ?_⟩
  obtain ⟨packaged, notKeyword, unhidden⟩ := plain use member
  exact TypeUse.not_misread packaged notKeyword unhidden

/-- A graph whose application hides a type of `java.lang`. -/
def hidingGraph : Graph where
  application := ⟨[{ text := "com" }, { text := "example" }], { text := "String" }⟩
  steps := [.literal "message" (.text "hello")]
  contributions := []

theorem hidingGraph_wellFormed : hidingGraph.WellFormed where
  steps := hidingGraph.hasWellFormedSteps_iff.2 (by decide +kernel)
  contributions := by decide +kernel

/-- A literal's type is read as the application of the same simple name. -/
theorem hidingGraph_misreads_literal :
    ∃ generated after, hidingGraph.generate .empty = (.ok generated, after) ∧
      ∃ use ∈ generated.initializer.typeUses,
        (generated.initializer.source.environment (generated.existing hidingGraph)).read?
          use.spelling ≠ some use.type := by
  obtain ⟨contributed, -, accepted⟩ :=
    hidingGraph.generate_of_wellFormed .empty hidingGraph_wellFormed
  have reads := hidingGraph.readsUnlessMisread_initializer .empty hidingGraph_wellFormed.steps
  have member : ⟨.lang TypeName.stringName, "String"⟩ ∈
      (hidingGraph.generatedIn .empty).initializer.typeUses := by
    decide +kernel
  have misread : TypeUse.Misread (hidingGraph.generatedIn .empty).initializer.imports
      ((hidingGraph.generatedIn .empty).hiders hidingGraph)
        ⟨.lang TypeName.stringName, "String"⟩ :=
    .hidden rfl rfl List.mem_cons_self rfl (by decide)
  exact ⟨_, _, accepted, _, member, fun read => (reads.read _ member).1 read misread⟩

end Graph

end AheadOfTime
