import AheadOfTime.Proofs.Generation.Calls
import AheadOfTime.Proofs.Generation.VariableNames

/-!
# Local variables that capture the helper

A call of the helper begins with an identifier: the helper's simple name, or the first one
of its package.  A local variable of that name captures the call.  This happens when a bean
is called like the helper, and when the helper has lost its simple name to another type and
its package begins like a variable.
-/

namespace AheadOfTime

open Java

def Java.leadingIdentifier (text : String) : String :=
  String.ofList ((Text.split '.' text.toList).headD [])

theorem Java.leadingIdentifier_dotted (first : Identifier) (rest : List Identifier) :
    leadingIdentifier (TypeName.dotted (first :: rest)) = first.text := by
  rw [leadingIdentifier, TypeName.split_dotted (List.cons_ne_nil first rest), List.map_cons,
    List.headD_cons]
  exact String.ofList_toList

theorem Java.leadingIdentifier_simple (simple : Identifier) :
    leadingIdentifier simple.text = simple.text := by
  rw [← canonical_unpackaged simple]
  exact (leadingIdentifier_dotted simple []).trans (canonical_unpackaged simple).symm

theorem Java.leadingIdentifier_canonical {type : TypeName} {first : Identifier}
    {rest : List Identifier} (package : type.package = first :: rest) :
    leadingIdentifier type.canonical = first.text := by
  rw [TypeName.canonical, TypeName.segments, package]
  exact leadingIdentifier_dotted first _

namespace Java.Locals

theorem isPlainShape_allocateAll (locals : Locals) (beans : List String) :
    ∀ name ∈ (locals.allocateAll beans).1, isPlainShape name.toList = true := by
  induction beans generalizing locals with
  | nil =>
      exact List.forall_mem_nil _
  | cons bean rest inductionHypothesis =>
      exact List.forall_mem_cons.2
        ⟨locals.isPlainShape_allocate_fst bean, inductionHypothesis (locals.allocate bean).2⟩

theorem isNameChar_of_isPlainShape {text : List Char} (shape : isPlainShape text = true) :
    ∀ c ∈ text, isNameChar c = true := by
  cases text with
  | nil =>
      exact List.forall_mem_nil _
  | cons first rest =>
      rw [isPlainShape, Bool.and_eq_true, List.all_eq_true] at shape
      refine List.forall_mem_cons.2 ⟨?_, shape.2⟩
      rw [isNameChar, Char.isAlphanum, Bool.or_eq_true, Bool.or_eq_true]
      rcases Bool.or_eq_true_iff.1 shape.1 with letter | underscore
      · exact .inl (.inl letter)
      · exact .inr underscore

theorem isUpper_toLower {c : Char} (nameChar : isNameChar c = true) :
    c.toLower.isUpper = false := by
  have table : ∀ code, code < 128 → (Char.ofNat code).toLower.isUpper = false := by
    decide +kernel
  obtain ⟨bound, same⟩ := ofNat_toNat_of_isNameChar nameChar
  rw [← same]
  exact table c.toNat bound

theorem isUpper_head_camelCase {skipped : Bool} {text : List Char} :
    ∀ c ∈ (camelCase false skipped text).head?, c.isUpper = false := by
  induction text generalizing skipped with
  | nil =>
      intro c member
      cases member
  | cons first rest inductionHypothesis =>
      rw [camelCase]
      split
      · rename_i nameChar
        intro c member
        obtain rfl := Option.some.inj member
        exact isUpper_toLower nameChar
      · exact inductionHypothesis

/-- The base name of a variable starts with no capital. -/
theorem isUpper_head_baseName (bean : String) :
    ∀ c ∈ (baseName bean).toList.head?, c.isUpper = false := by
  have marked : ∀ name : String, (∀ c ∈ name.toList.head?, c.isUpper = false) → name ≠ "" →
      ∀ c ∈ (if isIdentifier name then name else name ++ "Bean").toList.head?,
        c.isUpper = false := by
    intro name lower nonempty
    split
    · exact lower
    · obtain ⟨first, rest, parts⟩ :=
        List.exists_cons_of_ne_nil (String.toList_eq_nil_iff.not.2 nonempty)
      rw [parts] at lower
      rw [String.toList_append, parts]
      exact lower
  unfold baseName
  split
  · intro c member
    obtain rfl := Option.some.inj member
    decide
  · rename_i first rest found
    have lower : ∀ c ∈ (camelCase false false bean.toList).head?, c.isUpper = false :=
      isUpper_head_camelCase
    rw [found] at lower
    refine marked _ ?_ ?_
    · split
      · rw [String.toList_append]
        intro c member
        obtain rfl := Option.some.inj member
        decide
      · rw [String.toList_ofList]
        exact lower
    · split
      · simp
      · simp

end Java.Locals

namespace Java.Initializer

/-- The local variables of the method that builds the beans, its parameter included. -/
def locals (initializer : Initializer) : List String :=
  "context" :: "beanFactory" :: initializer.statements.filterMap Statement.declared?

/-- Whether a local variable captures an occurrence of a type. -/
def Captures (initializer : Initializer) (use : TypeUse) : Prop :=
  leadingIdentifier use.spelling ∈ initializer.locals

end Java.Initializer

namespace IssuedNames

/-- A name issued for a feature is the stem, or has a dollar sign. -/
theorem Fresh.eq_stem_or_dollar {known : List TypeName} {base : TypeName} {feature : String}
    {name : TypeName} (fresh : Fresh known base feature name) :
    name.simple.text = stem base feature ∨ '$' ∈ name.simple.text.toList := by
  obtain ⟨number, -, same⟩ := fresh.simple
  rw [same, numbered]
  by_cases first : number = 1
  · exact .inl (if_pos first)
  · rw [if_neg first, String.toList_append, String.toList_append]
    exact .inr (List.mem_append_left _ (List.mem_append_right _ List.mem_cons_self))

theorem Fresh.underscore_mem {known : List TypeName} {base : TypeName} {feature : String}
    {name : TypeName} (fresh : Fresh known base feature name) :
    '_' ∈ name.simple.text.toList := by
  have inStem : '_' ∈ (stem base feature).toList := by
    rw [toList_stem]
    exact List.mem_append_left _ (List.mem_append_right _ List.mem_cons_self)
  obtain ⟨number, -, same⟩ := fresh.simple
  rw [same, numbered]
  by_cases first : number = 1
  · rwa [if_pos first]
  · rw [if_neg first, String.toList_append, String.toList_append]
    exact List.mem_append_left _ (List.mem_append_left _ inStem)

theorem Fresh.not_isPrimitive {known : List TypeName} {base : TypeName} {feature : String}
    {name : TypeName} (fresh : Fresh known base feature name) (package : List Identifier) :
    TypeName.isPrimitive ⟨package, name.simple⟩ = false := by
  rw [← Bool.not_eq_true]
  intro primitive
  have plain : ∀ word ∈ primitiveNames, '_' ∉ word.toList := by
    decide
  rw [TypeName.isPrimitive, Bool.and_eq_true, List.contains_iff_mem] at primitive
  exact plain _ primitive.2 fresh.underscore_mem

end IssuedNames

/-! ## Captured calls -/

namespace Graph

variable (graph : Graph) (context : Context)

def beanVariables : List String :=
  (Draft.reservedLocals.allocateAll (definedBeans graph.steps)).1

theorem locals_generatedIn :
    (graph.generatedIn context).initializer.locals =
      "context" :: "beanFactory" :: graph.beanVariables := by
  rw [Initializer.locals, declared_generatedIn]
  rfl

theorem mem_locals_iff_taken (name : String) :
    name ∈ (graph.generatedIn context).initializer.locals ↔
      name ∈ (Draft.reservedLocals.allocateAll (definedBeans graph.steps)).2.taken := by
  rw [locals_generatedIn, Locals.mem_taken_allocateAll, ← beanVariables]
  change name ∈ Draft.reservedLocals.taken ++ graph.beanVariables ↔ _
  rw [List.mem_append, or_comm]

theorem isNameChar_of_mem_locals {name : String}
    (member : name ∈ (graph.generatedIn context).initializer.locals) :
    ∀ c ∈ name.toList, Locals.isNameChar c = true := by
  rw [locals_generatedIn, List.mem_cons, List.mem_cons] at member
  rcases member with rfl | rfl | member
  · exact List.all_eq_true.1 (by decide)
  · exact List.all_eq_true.1 (by decide)
  · exact Locals.isNameChar_of_isPlainShape (Locals.isPlainShape_allocateAll _ _ name member)

theorem not_isPrimitive_helper (package : List Identifier) :
    TypeName.isPrimitive ⟨package, (graph.namingIn context).helper.simple⟩ = false :=
  (graph.fresh_helperName context).not_isPrimitive package

/-- A variable is called like the helper when a bean is. -/
theorem helper_mem_locals_iff :
    (graph.namingIn context).helper.simple.text ∈
        (graph.generatedIn context).initializer.locals ↔
      ∃ bean ∈ definedBeans graph.steps,
        Locals.baseName bean = (graph.namingIn context).helper.simple.text := by
  have fresh := graph.fresh_helperName context
  rcases fresh.eq_stem_or_dollar with isStem | hasDollar
  · have unnumbered : Locals.Unnumbered (graph.namingIn context).helper.simple.text := by
      intro c isLast
      rw [namingIn, Draft.namingThrough, isStem, IssuedNames.toList_stem,
        List.getLast?_append] at isLast
      obtain rfl := Option.some.inj isLast
      decide
    have unreserved : (graph.namingIn context).helper.simple.text ∉
        Draft.reservedLocals.taken := by
      have plain : ∀ word ∈ Draft.reservedLocals.taken, '_' ∉ word.toList := by
        decide
      exact fun member => plain _ member fresh.underscore_mem
    rw [mem_locals_iff_taken, Locals.mem_taken_allocateAll_iff unnumbered]
    exact or_iff_right unreserved
  · -- Neither variables nor the names of beans have a dollar sign.
    have dollar : Locals.isNameChar '$' = false := by
      decide
    refine iff_of_false (fun member => ?_) ?_
    · rw [graph.isNameChar_of_mem_locals context member _ hasDollar] at dollar
      cases dollar
    · rintro ⟨bean, -, same⟩
      have shape := Locals.isPlainShape_baseName bean
      rw [same] at shape
      rw [Locals.isNameChar_of_isPlainShape shape _ hasDollar] at dollar
      cases dollar

/-- A bean that is called like the helper is called like the first helper of an application
whose simple name is of letters, digits and underscores and begins with no capital. -/
theorem plain_of_baseName_eq_helper {bean : String}
    (same : Locals.baseName bean = (graph.namingIn context).helper.simple.text) :
    (graph.namingIn context).helper.simple.text =
        IssuedNames.stem graph.application Draft.helperFeature ∧
      (∀ c ∈ graph.application.simple.chars, Locals.isNameChar c = true) ∧
      ∀ c ∈ graph.application.simple.chars.head?, c.isUpper = false := by
  have fresh := graph.fresh_helperName context
  have nameChars := Locals.isNameChar_of_isPlainShape (Locals.isPlainShape_baseName bean)
  have lower := Locals.isUpper_head_baseName bean
  rw [same] at nameChars lower
  have isStem : (graph.namingIn context).helper.simple.text =
      IssuedNames.stem graph.application Draft.helperFeature := by
    refine fresh.eq_stem_or_dollar.resolve_right fun hasDollar => ?_
    have dollar : Locals.isNameChar '$' = false := by
      decide
    rw [nameChars _ hasDollar] at dollar
    cases dollar
  rw [isStem, IssuedNames.toList_stem, List.append_assoc] at nameChars lower
  refine ⟨isStem, fun c member => nameChars c (List.mem_append_left _ member), ?_⟩
  intro c isFirst
  refine lower c ?_
  rw [List.head?_append, Option.mem_def.1 isFirst]
  rfl

/-- The ways in which a local variable captures the helper: a bean is called like a helper
that is written by its simple name; or the simple name is another type's, and the package
in front of it begins like a variable. -/
inductive HelperCaptured (imports : Imports) (helper : TypeName) : Prop where
  | simply (written : graph.application.package = [] ∨
        imports.ownerOf? helper.simple = some helper)
      {bean : String} (member : bean ∈ definedBeans graph.steps)
      (called : Locals.baseName bean = helper.simple.text)
  | qualified (lost : imports.ownerOf? helper.simple ≠ some helper)
      {first : Identifier} {rest : List Identifier}
      (package : graph.application.package = first :: rest)
      (member : first.text ∈ "context" :: "beanFactory" :: graph.beanVariables)

theorem spelling_helperUse_of_owned
    (owned : (graph.namingIn context).claimed.imports.ownerOf?
      (graph.namingIn context).helper.simple = some (graph.namingIn context).helper) :
    (graph.helperUse context).spelling = (graph.namingIn context).helper.simple.text :=
  Imports.spelling_of_bare (graph.not_isPrimitive_helper context _) (.inl owned)

theorem spelling_helperUse_of_lost
    (lost : (graph.namingIn context).claimed.imports.ownerOf?
      (graph.namingIn context).helper.simple ≠ some (graph.namingIn context).helper) :
    (graph.helperUse context).spelling = (graph.namingIn context).helper.canonical := by
  have notPrimitive := graph.not_isPrimitive_helper context (graph.namingIn context).helper.package
  have notBare : ¬(graph.namingIn context).claimed.imports.Bare
      (graph.namingIn context).helper := by
    rintro (owned | ⟨unowned, -⟩)
    · exact lost owned
    · obtain ⟨owner, owned, -⟩ :=
        (graph.serves_claimed_namingIn context).owned _ (.inl rfl) notPrimitive
      rw [unowned] at owned
      cases owned
  refine (Imports.spelling_eq _ _).trans ?_
  rw [Imports.written_of_not_bare notPrimitive notBare]

theorem captures_helperUse_iff :
    (graph.generatedIn context).initializer.Captures (graph.helperUse context) ↔
      graph.HelperCaptured (graph.namingIn context).claimed.imports
        (graph.namingIn context).helper := by
  have package := graph.package_helper context
  have simply : (graph.helperUse context).spelling =
      (graph.namingIn context).helper.simple.text →
        ((graph.generatedIn context).initializer.Captures (graph.helperUse context) ↔
          ∃ bean ∈ definedBeans graph.steps,
            Locals.baseName bean = (graph.namingIn context).helper.simple.text) := by
    intro spelled
    rw [Initializer.Captures, spelled, leadingIdentifier_simple, helper_mem_locals_iff]
  by_cases owned : (graph.namingIn context).claimed.imports.ownerOf?
      (graph.namingIn context).helper.simple = some (graph.namingIn context).helper
  · refine (simply (graph.spelling_helperUse_of_owned context owned)).trans ⟨?_, ?_⟩
    · rintro ⟨bean, member, called⟩
      exact .simply (.inr owned) member called
    · rintro (⟨-, member, called⟩ | ⟨lost, -, -⟩)
      · exact ⟨_, member, called⟩
      · exact absurd owned lost
  · have spelled := graph.spelling_helperUse_of_lost context owned
    cases parts : graph.application.package with
    | nil =>
        rw [parts] at package
        rw [eq_unpackaged package, canonical_unpackaged] at spelled
        refine (simply spelled).trans ⟨?_, ?_⟩
        · rintro ⟨bean, member, called⟩
          exact .simply (.inl parts) member called
        · rintro (⟨-, member, called⟩ | ⟨-, packaged, -⟩)
          · exact ⟨_, member, called⟩
          · rw [parts] at packaged
            cases packaged
    | cons first rest =>
        rw [parts] at package
        rw [Initializer.Captures, spelled, leadingIdentifier_canonical package,
          locals_generatedIn]
        constructor
        · exact .qualified owned parts
        · rintro (⟨written, -, -⟩ | ⟨-, packaged, member⟩)
          · rcases written with unpackaged | isOwned
            · rw [parts] at unpackaged
              cases unpackaged
            · exact absurd isOwned owned
          · rw [parts] at packaged
            rwa [(List.cons.inj packaged).1]

/-- What a call of the helper is like: it is in the text of its statement, writes the helper
as the initializer does, and is captured in the ways above only; a bean that is called like
the helper is called like the first helper of an application whose simple name is of letters,
digits and underscores and begins with no capital. -/
structure HelperCall (generated : Generated) (statement : Statement) (use : TypeUse)
    (method : String) : Prop where
  written : ∃ front arguments,
    statement.text = front ++ Statement.helperCall use method arguments ++ ";"
  ofHelper : ∃ helper ∈ generated.helper, use = generated.initializer.imports.use helper.name
  captured_iff : generated.initializer.Captures use ↔
    graph.HelperCaptured generated.initializer.imports use.type
  plain : ∀ bean, Locals.baseName bean = use.type.simple.text →
    use.type.simple.text = IssuedNames.stem graph.application Draft.helperFeature ∧
      (∀ c ∈ graph.application.simple.chars, Locals.isNameChar c = true) ∧
      ∀ c ∈ graph.application.simple.chars.head?, c.isUpper = false

/-- Local variables capture no call of the helper unless a bean is called like it, or its
simple name is lost and its package begins like a variable. -/
theorem helper_calls_are_captured_iff {generated : Generated} {after : Context}
    (accepted : graph.generate context = (.ok generated, after)) :
    ∀ statement ∈ generated.initializer.statements, ∀ use method,
      statement.helperCall? = some (use, method) →
        graph.HelperCall generated statement use method := by
  obtain ⟨wellFormed, rfl, -⟩ := graph.of_generate_eq_ok context accepted
  intro statement member use method calls
  obtain ⟨rfl, step, stepMember, stepCalls⟩ :=
    graph.exists_hidden_of_helperCall? context wellFormed.steps member calls
  obtain ⟨named, imports⟩ := graph.claimed_of_helperMethod? context stepMember stepCalls
  obtain ⟨helper, found, sameName⟩ := Option.map_eq_some_iff.1 named
  refine {
    written := Statement.text_of_helperCall? calls
    ofHelper := ⟨helper, found, ?_⟩
    captured_iff := ?_
    plain := fun bean => graph.plain_of_baseName_eq_helper context }
  · rw [imports, sameName]
    rfl
  · rw [imports]
    exact graph.captures_helperUse_iff context

theorem cacheGraph_helper_is_not_captured :
    ∃ generated after, cacheGraph.generate .empty = (.ok generated, after) ∧
      generated.initializer.statements.filterMap Statement.helperCall? ≠ [] ∧
      ∀ statement ∈ generated.initializer.statements, ∀ use method,
        statement.helperCall? = some (use, method) →
          ¬ generated.initializer.Captures use := by
  obtain ⟨contributed, -, accepted⟩ :=
    cacheGraph.generate_of_wellFormed .empty cacheGraph_wellFormed
  have capital : ∃ c ∈ cacheGraph.application.simple.chars.head?, c.isUpper = true :=
    ⟨'A', by decide, by decide⟩
  have owned : ∀ call ∈ (cacheGraph.generatedIn .empty).initializer.statements.filterMap
      Statement.helperCall?,
      (cacheGraph.generatedIn .empty).initializer.imports.ownerOf? call.1.type.simple =
        some call.1.type := by
    decide +kernel
  refine ⟨_, _, accepted, by decide +kernel, ?_⟩
  intro statement member use method calls
  have call := helper_calls_are_captured_iff cacheGraph .empty accepted statement member use
    method calls
  rw [call.captured_iff]
  rintro (⟨-, -, called⟩ | ⟨lost, -, -⟩)
  · obtain ⟨-, -, lower⟩ := call.plain _ called
    obtain ⟨c, isFirst, isCapital⟩ := capital
    rw [lower c isFirst] at isCapital
    cases isCapital
  · exact lost (owned (use, method) (List.mem_filterMap.2 ⟨statement, member, calls⟩))

/-- A graph with a bean that is called like the helper. -/
def capturingGraph : Graph where
  application := ⟨[{ text := "com" }, { text := "example" }], { text := "app" }⟩
  steps :=
    [.creation ⟨"app__ReflectiveAccess",
      ⟨[{ text := "com" }, { text := "acme" }], { text := "Cache" }⟩, [], none, .hidden⟩]
  contributions := []

theorem capturingGraph_wellFormed : capturingGraph.WellFormed where
  steps := capturingGraph.hasWellFormedSteps_iff.2 (by decide +kernel)
  contributions := by decide +kernel

/-- The variable that a call of the helper sets captures the call. -/
theorem capturingGraph_captures_helper :
    ∃ generated after, capturingGraph.generate .empty = (.ok generated, after) ∧
      ∃ statement ∈ generated.initializer.statements, ∃ use,
        statement.helperCall? = some (use, "instantiate") ∧
        generated.initializer.Captures use ∧
        statement.text = "Cache app__ReflectiveAccess = app__ReflectiveAccess.instantiate(" ++
          "Cache.class, new Class<?>[] {});" := by
  obtain ⟨contributed, -, accepted⟩ :=
    capturingGraph.generate_of_wellFormed .empty capturingGraph_wellFormed
  refine ⟨_, _, accepted, _, List.mem_cons_self, _, rfl, ?_, ?_⟩
  · rw [Initializer.Captures]
    decide +kernel
  · decide +kernel

end Graph

end AheadOfTime
