import AheadOfTime.Proofs.Generation.Fidelity
import AheadOfTime.Proofs.Java.Fragments.Initializer

/-!
# The texts of a graph in generated source

The texts of a graph are in the source of its initializer as text literals, and only
there: every text is read back as it is, and no text changes how anything else is read.
-/

namespace AheadOfTime

open Java

def Literal.text? : Literal → Option String
  | text value => some value
  | boolean _ | integer _ | real _ => none

def Argument.text? : Argument → Option String
  | value literal => literal.text?
  | reference _ => none

/-- The text that a step gives for the name of a member: a hidden member is passed to
the helper by its name. -/
def Step.memberText? : Step → Option String
  | .property set =>
      match set.injection, set.visibility with
      | .setter, .hidden => some (setterName set.name)
      | .field, .hidden => some set.name
      | _, .exposed => none
  | .callback _ method .hidden => some method
  | .callback _ _ .exposed | .literal .. | .creation .. | .supplier .. => none

def Step.texts : Step → List String
  | .literal bean value => value.text?.toList ++ [bean]
  | .creation made => made.arguments.filterMap Argument.text? ++ [made.bean]
  | .property set => (Step.property set).memberText?.toList ++ set.value.text?.toList
  | .callback bean method visibility =>
      (Step.callback bean method visibility).memberText?.toList
  | .supplier .. => []

namespace Java

theorem Fragment.quoted?_ofLiteral (value : Literal) : (ofLiteral value).quoted? = value.text? := by
  cases value <;> rfl

namespace Statement

theorem texts_ended (start : String) (fragment : Fragment) (ending : String) :
    [Fragment.code start, fragment, .code ending].filterMap Fragment.quoted? =
      fragment.quoted?.toList := by
  cases fragment <;> rfl

theorem texts_helperFragments (helper : TypeUse) (method : String) (arguments : List Fragment) :
    (helperFragments helper method arguments).filterMap Fragment.quoted? =
      arguments.filterMap Fragment.quoted? := by
  change (Fragment.commas arguments ++ _).filterMap Fragment.quoted? = _
  rw [List.filterMap_append, Fragment.quoted?_commas]
  exact List.append_nil _

end Statement

end Java

namespace Step

variable (naming : Naming) (scope : Scope)

theorem quoted?_operand (argument : Argument) :
    (argument.operand naming).fragment.quoted? = argument.text? := by
  cases argument with
  | value literal =>
      exact Fragment.quoted?_ofLiteral literal
  | reference bean =>
      rfl

theorem quoted?_operands (arguments : List Argument) :
    ((arguments.map (·.operand naming)).map Operand.fragment).filterMap Fragment.quoted? =
      arguments.filterMap Argument.text? := by
  rw [List.map_map, List.filterMap_map]
  refine List.filterMap_congr fun argument _ => ?_
  exact quoted?_operand naming argument

theorem texts_creation (made : Creation) :
    (made.statement naming scope).texts = made.arguments.filterMap Argument.text? := by
  rw [Creation.statement]
  cases made.visibility with
  | exposed =>
      change (Fragment.commas _ ++ _).filterMap Fragment.quoted? = _
      rw [List.filterMap_append, Fragment.quoted?_commas, quoted?_operands]
      exact List.append_nil _
  | hidden =>
      have helped := Statement.texts_helperFragments
        (naming.claimed.imports.use naming.helper) "instantiate"
        (.code (Statement.classOf (naming.imports.use made.type)) ::
          .code (naming.claimed.classArray (made.parameters scope)).text ::
            (made.arguments.map (·.operand naming)).map Operand.fragment)
      exact helped.trans (quoted?_operands naming made.arguments)

theorem texts_property (set : PropertyValue) (type : TypeName) :
    (set.statement naming scope type).texts = (Step.property set).texts := by
  have value := quoted?_operand naming set.value
  rw [PropertyValue.statement, texts, memberText?, ← value]
  cases set.injection <;> cases set.visibility
  all_goals
    simp only [Statement.texts, Statement.fragments, Statement.texts_ended,
      Statement.texts_helperFragments, Option.toList_none, List.nil_append]
  all_goals
    cases (set.value.operand naming).fragment <;> rfl

theorem texts_callback (type : TypeName) (bean method : String) (visibility : Visibility) :
    (naming.callStatement type bean method visibility).texts =
      (Step.callback bean method visibility).texts := by
  cases visibility <;> rfl

/-- The text literals in the statements of a well-formed step are the texts of the step. -/
theorem texts_statements {application : TypeName} {step : Step}
    (wellFormed : step.WellFormed application scope) :
    (step.statements naming scope).flatMap Statement.texts = step.texts := by
  cases step with
  | literal bean value =>
      have declared :
          (Statement.declare (naming.imports.use value.type.boxed) (naming.variableOf bean)
            value).texts = value.text?.toList := by
        rw [← Fragment.quoted?_ofLiteral]
        exact Statement.texts_ended _ _ _
      rw [statements, List.flatMap_cons, declared]
      rfl
  | creation made =>
      rw [statements, List.flatMap_cons, texts_creation]
      rfl
  | property set =>
      obtain ⟨type, owner⟩ := (PropertyValue.WellFormed.object wellFormed).typeOf?_eq
      rw [statements, owner, ← texts_property naming scope set type]
      exact List.append_nil _
  | callback bean method visibility =>
      obtain ⟨type, owner⟩ := wellFormed.1.typeOf?_eq
      rw [statements, owner,
        ← texts_callback naming type bean method visibility]
      exact List.append_nil _
  | supplier bean type =>
      rfl

end Step

theorem Naming.texts_replay {application : TypeName} {naming : Naming} {scope : Scope}
    {steps : List Step} (admitted : scope.Admits application steps) :
    (naming.replay scope steps).flatMap Statement.texts = steps.flatMap Step.texts := by
  induction steps generalizing naming scope with
  | nil =>
      rfl
  | cons step rest inductionHypothesis =>
      obtain ⟨wellFormed, restAdmitted⟩ := admitted
      rw [replay, List.flatMap_append, Step.texts_statements naming scope wellFormed,
        inductionHypothesis restAdmitted, List.flatMap_cons]

/-- What it means for a text literal to stand for its text. -/
structure Java.StandsFor (written : List Char) (text : String) : Prop where
  delimited : ∃ inner, written = '"' :: (inner ++ ['"'])
  printable : ∀ c ∈ written, IsPrintable c
  harmless : ∃ units, translate? .even written = some units ∧
    ∀ unit ∈ units, unit.escaped = true → IsInner unit.code
  read : readSource? written = some [.text (encodeUnits text.toList)]
  readApart : ReadsApart written [.text (encodeUnits text.toList)]
  decoded : decodeUnits? (encodeUnits text.toList) = some text.toList

theorem Java.stringLiteral_standsFor (text : String) :
    StandsFor (stringLiteral text).toList text := by
  have apart := readsApart_stringLiteral text
  obtain ⟨parts, printable⟩ := isPrintable_stringLiteral text
  obtain ⟨inner, encodes, translated⟩ := exists_units_stringLiteral text
  have whole := translated []
  rw [List.append_nil] at whole
  refine ⟨⟨_, parts⟩, printable, ⟨_, whole, ?_⟩, readSource?_of_readsApart apart, apart,
    decodeUnits?_encodeUnits text.toList⟩
  have quote : (InputUnit.raw '"'.toNat).escaped = true →
      IsInner (InputUnit.raw '"'.toNat).code := by
    intro escaped
    cases escaped
  simp only [List.append_nil]
  exact List.forall_mem_cons.2 ⟨quote,
    List.forall_mem_append.2 ⟨encodes.harmless, List.forall_mem_singleton.2 quote⟩⟩

theorem Java.StandsFor.eq {written : List Char} {first second : String}
    (standsForFirst : StandsFor written first) (standsForSecond : StandsFor written second) :
    first = second := by
  have sameElements := standsForFirst.read.symm.trans standsForSecond.read
  have sameUnits : encodeUnits first.toList = encodeUnits second.toList := by
    simpa using sameElements
  have sameChars : some first.toList = some second.toList := by
    rw [← standsForFirst.decoded, ← standsForSecond.decoded, sameUnits]
  exact String.toList_injective (Option.some.inj sameChars)

namespace Graph

/-- Every text literal stands for the text that it is written for, and no other text is
written so. The text literals of a generated initializer are the texts of its graph; with
other texts in their place, these are read, and everything else is read as before. -/
theorem text_literals_stand_for_texts_and_keep_code :
    (∀ text, StandsFor (stringLiteral text).toList text) ∧
      Function.Injective stringLiteral ∧
      ∀ (graph : Graph) (context after : Context) (generated : Generated),
        graph.generate context = (.ok generated, after) →
          ∃ fragments : List Fragment,
            Fragment.source fragments = generated.initializer.source.body ∧
            fragments.filterMap Fragment.quoted? = graph.steps.flatMap Step.texts ∧
            ∀ change : String → String,
              readSource? (generated.initializer.mapTexts change).source.body.toList =
                some ((fragments.map (Fragment.mapText change)).flatMap Fragment.elements) := by
  refine ⟨stringLiteral_standsFor, fun first second same => ?_, ?_⟩
  · have standsForSecond := stringLiteral_standsFor second
    rw [← same] at standsForSecond
    exact (stringLiteral_standsFor first).eq standsForSecond
  · intro graph context after generated accepted
    obtain ⟨wellFormed, rfl, -⟩ := graph.of_generate_eq_ok context accepted
    have plain := graph.plainNames_generatedIn context wellFormed.steps
    refine ⟨(graph.generatedIn context).initializer.fragments, Initializer.source_fragments _,
      ?_, Initializer.readSource?_mapTexts plain⟩
    rw [Initializer.quoted?_fragments,
      graph.statements_generatedIn context wellFormed.steps]
    exact Naming.texts_replay (graph.hasWellFormedSteps_iff.1 wellFormed.steps)

theorem cacheGraph_text_literals_keep_code :
    ∃ generated after, cacheGraph.generate .empty = (.ok generated, after) ∧
      ∃ fragments : List Fragment,
        fragments.filterMap Fragment.quoted? =
          ["limit", "cache", "setSize", "a\nb", "start"] ∧
        ∀ change : String → String,
          readSource? (generated.initializer.mapTexts change).source.body.toList =
            some ((fragments.map (Fragment.mapText change)).flatMap Fragment.elements) := by
  obtain ⟨contributed, -, accepted⟩ :=
    cacheGraph.generate_of_wellFormed .empty cacheGraph_wellFormed
  obtain ⟨-, -, keeps⟩ := text_literals_stand_for_texts_and_keep_code
  obtain ⟨fragments, -, quoted, read⟩ := keeps _ _ _ _ accepted
  refine ⟨_, _, accepted, fragments, quoted.trans ?_, read⟩
  decide +kernel

end Graph

end AheadOfTime
