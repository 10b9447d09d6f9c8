import AheadOfTime.Proofs.Generation.Fidelity
import AheadOfTime.Proofs.Java.Declarations
import AheadOfTime.Proofs.Java.Meaning

/-!
# The types of literals

The type that a literal is given and the expression that is written for it agree: the expression
is a constant expression of that type, and initializes the variable of its bean.
-/

namespace AheadOfTime

open Java

/-- The step behind a variable that is declared for a literal. -/
theorem Step.of_declare_mem {naming : Naming} {scope : Scope} {step : Step} {type : TypeUse}
    {name : String} {value : Literal}
    (member : .declare type name value ∈ step.statements naming scope) :
    ∃ bean, step = .literal bean value ∧ type = naming.imports.use value.type.boxed ∧
      name = naming.variableOf bean := by
  cases step with
  | literal bean literal =>
      rw [statements, List.mem_cons, List.mem_singleton] at member
      rcases member with declared | published
      · cases declared
        exact ⟨bean, rfl, rfl, rfl⟩
      · cases published
  | creation made =>
      obtain ⟨bean, made, arguments, parameterTypes, visibility⟩ := made
      rw [statements, List.mem_cons, List.mem_singleton] at member
      rcases member with created | published
      · cases visibility <;> cases created
      · cases published
  | property set =>
      obtain ⟨owner, -, same⟩ := List.mem_map.1 member
      obtain ⟨bean, property, given, injection, parameterType, visibility⟩ := set
      cases injection <;> cases visibility <;> cases same
  | callback bean method visibility =>
      obtain ⟨owner, -, same⟩ := List.mem_map.1 member
      cases visibility <;> cases same
  | supplier bean type =>
      cases member

namespace Naming

variable {naming : Naming} {scope : Scope} {steps : List Step}

theorem of_declare_mem_replay {type : TypeUse} {name : String} {value : Literal}
    (member : .declare type name value ∈ naming.replay scope steps) :
    ∃ (bean : String) (imports : Imports), .literal bean value ∈ steps ∧
      type = imports.use value.type.boxed ∧ name = naming.variableOf bean := by
  induction steps generalizing naming scope with
  | nil =>
      cases member
  | cons step rest inductionHypothesis =>
      rcases List.mem_append.1 member with here | later
      · obtain ⟨bean, rfl, isType, isName⟩ := Step.of_declare_mem here
        exact ⟨bean, naming.imports, List.mem_cons_self, isType, isName⟩
      · obtain ⟨bean, imports, isStep, isType, isName⟩ := inductionHypothesis later
        rw [variableOf_after] at isName
        exact ⟨bean, imports, List.mem_cons_of_mem _ isStep, isType, isName⟩

theorem declare_mem_replay {bean : String} {value : Literal}
    (member : .literal bean value ∈ steps) :
    ∃ type, .declare type (naming.variableOf bean) value ∈ naming.replay scope steps := by
  induction steps generalizing naming scope with
  | nil =>
      cases member
  | cons step rest inductionHypothesis =>
      rcases List.mem_cons.1 member with rfl | later
      · exact ⟨_, List.mem_append_left _ List.mem_cons_self⟩
      · obtain ⟨type, declared⟩ := @inductionHypothesis (naming.after step) (scope.after step) later
        rw [variableOf_after] at declared
        exact ⟨type, List.mem_append_right _ declared⟩

end Naming

/-- Whether a constant expression is one for a literal: it is allowed, and has the type and the
value of the literal. -/
structure Literal.IsWrittenAs (value : Literal) (constant : Constant) : Prop where
  type : constant.type?.map ConstantType.name = some value.type
  value : constant.value? = some (.ofLiteral value)

/-- The expression of a literal is one for it. -/
theorem Literal.exists_isWrittenAs (value : Literal) :
    ∃ constant, Constant.Spells (literal value).toList constant ∧ value.IsWrittenAs constant := by
  obtain ⟨constant, spells, evaluates⟩ := Constant.spells_literal value
  refine ⟨constant, spells, ?_, evaluates⟩
  rw [Constant.type?_of_value? evaluates, Option.map_some, Value.type_ofLiteral]

/-- Different literals are written differently. -/
theorem Java.literal_inj {first second : Literal} (same : literal first = literal second) :
    first = second := by
  obtain ⟨constant, spells, written⟩ := first.exists_isWrittenAs
  obtain ⟨other, otherSpells, otherWritten⟩ := second.exists_isWrittenAs
  rw [same] at spells
  have sameConstant : some constant = some other :=
    spells.constant?_eq.symm.trans otherSpells.constant?_eq
  cases sameConstant
  have sameValue := written.value.symm.trans otherWritten.value
  exact Value.ofLiteral_injective (Option.some.inj sameValue)

/-- Whether the declaration of a variable is allowed: it is read as a declaration with an
expression for the literal, and the declared type is the box of its type. -/
structure Java.Declares (type : TypeUse) (name : String) (value : Literal) : Prop where
  boxed : type.type = value.type.boxed
  read : ∃ constant,
    declaration? (Statement.declare type name value).text = some ⟨type.spelling, name, constant⟩ ∧
    value.IsWrittenAs constant ∧
    ∀ kind ∈ constant.type?, kind.Initializes type.type

theorem Java.declares_use (imports : Imports) {name : String} (isName : isIdentifier name = true)
    (value : Literal) : Declares (imports.use value.type.boxed) name value := by
  obtain ⟨constant, spells, written⟩ := value.exists_isWrittenAs
  have spelling : (imports.use value.type.boxed).spelling =
      (imports.written value.type.boxed).canonical :=
    imports.spelling_eq value.type.boxed
  have isType :
      (TypeName.parse (imports.use value.type.boxed).spelling).toOption.isSome = true := by
    rw [spelling, TypeName.parse_canonical]
    rfl
  have typeEach : ∀ c ∈ (imports.use value.type.boxed).spelling.toList,
      c = '.' ∨ isIdentifierPart c = true := by
    rw [spelling]
    exact fun c member => TypeName.isIdentifierPart_of_mem_dotted member
  refine ⟨rfl, constant, declaration?_text isType typeEach isName spells, written, ?_⟩
  intro kind isKind
  have isType := written.type
  rw [isKind, Option.map_some] at isType
  have initializes := kind.initializes_boxed
  rwa [Option.some.inj isType] at initializes

namespace Graph

theorem mem_definedBeans_of_literal {steps : List Step} {bean : String} {value : Literal}
    (member : .literal bean value ∈ steps) : bean ∈ definedBeans steps :=
  List.mem_filterMap.2 ⟨_, member, rfl⟩

/-- The variables that a generated initializer declares for literals. -/
theorem declares_of_accepted {graph : Graph} {context after : Context} {generated : Generated}
    (accepted : graph.generate context = (.ok generated, after)) {type : TypeUse} {name : String}
    {value : Literal}
    (declared : .declare type name value ∈ generated.initializer.statements) :
    ("\t\t" ++ (Statement.declare type name value).text).toList ∈
        Text.split '\n' generated.initializer.source.body.toList ∧
      Declares type name value := by
  obtain ⟨wellFormed, rfl, -⟩ := graph.of_generate_eq_ok context accepted
  rw [graph.statements_generatedIn context wellFormed.steps] at declared
  have lines := (graph.replays_generatedIn context wellFormed.steps).lines
  obtain ⟨bean, imports, isStep, rfl, rfl⟩ := Naming.of_declare_mem_replay declared
  have isName := graph.isIdentifier_variableOf context (mem_definedBeans_of_literal isStep)
  refine ⟨?_, declares_use imports isName value⟩
  rw [lines]
  refine List.mem_map_of_mem ?_
  simp only [List.mem_append, List.mem_cons]
  exact .inl (.inl (.inr (.inr (List.mem_map_of_mem declared))))

/-- The expression of a literal has, by the rules of Java, the type of the literal and its value,
and is no other literal's; and the variable that is declared for a literal has the box of that
type, so that the expression may initialize it. -/
theorem literals_have_their_types :
    (∀ value : Literal,
      ∃ constant, constant? (literal value) = some constant ∧ value.IsWrittenAs constant) ∧
    (∀ value, constant? (literal (.boolean value)) = some (.boolean value)) ∧
    (∀ value, constant? (literal (.integer value)) = some (.ofInteger value) ∧
      (Constant.ofInteger value).type? = some (.ofInteger !Literal.isShort value) ∧
      (Value.ofLiteral (.integer value)).whole? = some value.toInt) ∧
    (∀ long,
      let bound := Constant.integer (ConstantType.integerBound long) long
      bound.type? = none ∧ (Constant.negative bound).type? = some (.ofInteger long)) ∧
    (∀ value : Binary64,
      ∃ constant, constant? (literal (.real value)) = some constant ∧
        constant.type? = some .double) ∧
    (∀ value, constant? (literal (.text value)) = some (.text (encodeUnits value.toList)) ∧
      decodeUnits? (encodeUnits value.toList) = some value.toList) ∧
    (∀ first second : Literal, literal first = literal second → first = second) ∧
    ∀ (graph : Graph) (context after : Context) (generated : Generated),
      graph.generate context = (.ok generated, after) →
        (∀ bean value, .literal bean value ∈ graph.steps →
          ∃ type name, .declare type name value ∈ generated.initializer.statements) ∧
        ∀ type name value, .declare type name value ∈ generated.initializer.statements →
          ("\t\t" ++ (Statement.declare type name value).text).toList ∈
              Text.split '\n' generated.initializer.source.body.toList ∧
            Declares type name value := by
  refine ⟨?literals, ?booleans, ?integers, ?bounds, ?reals, ?texts, ?different, ?graphs⟩
  case literals =>
    intro value
    obtain ⟨constant, spells, written⟩ := value.exists_isWrittenAs
    exact ⟨constant, spells.constant?_eq, written⟩
  case booleans =>
    exact fun value => (Constant.spells_boolean value).constant?_eq
  case integers =>
    intro value
    have type := Constant.type?_of_value? (Constant.value?_ofInteger value)
    rw [Value.ofLiteral, Value.type_ofInteger] at type
    exact ⟨(Constant.spells_integer value).constant?_eq, type, Value.whole?_ofLiteral value⟩
  case bounds =>
    exact fun long => ⟨if_neg (lt_irrefl _), if_pos le_rfl⟩
  case reals =>
    intro value
    obtain ⟨constant, spells, evaluates⟩ := Constant.spells_real value
    exact ⟨constant, spells.constant?_eq, Constant.type?_of_value? evaluates⟩
  case texts =>
    exact fun value =>
      ⟨(Constant.spells_text value).constant?_eq, decodeUnits?_encodeUnits value.toList⟩
  case different =>
    exact fun first second same => literal_inj same
  case graphs =>
    intro graph context after generated accepted
    refine ⟨fun bean value isStep => ?_, fun type name value declared =>
      declares_of_accepted accepted declared⟩
    obtain ⟨wellFormed, rfl, -⟩ := graph.of_generate_eq_ok context accepted
    rw [graph.statements_generatedIn context wellFormed.steps]
    obtain ⟨type, declared⟩ := Naming.declare_mem_replay isStep
    exact ⟨type, _, declared⟩

theorem cacheGraph_literals_have_their_types :
    (let value := Literal.real (.finite true 1 (-1074) (by decide))
      ∃ constant, constant? (literal value) = some constant ∧ value.IsWrittenAs constant) ∧
    literal (.real .nan) ≠ literal (.real (.infinite true)) ∧
    ∃ generated after type name, cacheGraph.generate .empty = (.ok generated, after) ∧
      .declare type name (.integer 8) ∈ generated.initializer.statements ∧
      Declares type name (.integer 8) := by
  obtain ⟨literals, -, -, -, -, -, different, graphs⟩ := literals_have_their_types
  refine ⟨literals _, fun same => ?_, ?_⟩
  · have sameLiteral := different (.real .nan) (.real (.infinite true)) same
    cases sameLiteral
  · obtain ⟨contributed, -, accepted⟩ :=
      cacheGraph.generate_of_wellFormed .empty cacheGraph_wellFormed
    obtain ⟨declared, declares⟩ := graphs cacheGraph .empty _ _ accepted
    obtain ⟨type, name, member⟩ := declared "limit" (.integer 8) List.mem_cons_self
    exact ⟨_, _, type, name, accepted, member, (declares type name _ member).2⟩

end Graph

end AheadOfTime
