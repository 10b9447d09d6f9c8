import AheadOfTime.Proofs.Java.Braces

/-!
# The texts in a statement

A statement is code around text literals.  The code is plain when the names in the
statement are, so no text changes how the code around it is read.
-/

namespace AheadOfTime

def Literal.mapText (change : String → String) : Literal → Literal
  | text value => text (change value)
  | boolean value => boolean value
  | integer value => integer value
  | real value => real value

namespace Java

/-- A sound fragment in a line, which closes the braces that it opens and no others. -/
structure Fragment.InLine (fragment : Fragment) : Prop where
  sound : fragment.Sound
  oneLine : OneLine fragment.text
  balanced : Shifts fragment.elements 0 0

namespace Fragment.InLine

theorem codeLine {text : String} (line : CodeLine text)
    (balanced : Shifts (codeElements text.toList) 0 0) : InLine (.code text) where
  sound := reads_code fun c member => isCode_of_isLineChar (line c member)
  oneLine := .of_codeLine line
  balanced := balanced

theorem code {text : String} (plain : Plain text) : InLine (.code text) :=
  codeLine (.of_plain plain) (shifts_plain plain)

theorem quoted (text : String) : InLine (.quoted text) :=
  ⟨trivial, OneLine.stringLiteral text, shifts_text _⟩

theorem classArray {array : ClassArray}
    (plain : ∀ type ∈ array.element :: array.types, Plain type.spelling) :
    InLine (.code array.text) := by
  have start : Plain ("new " ++ array.element.spelling ++ "<?>[] ") := by
    simp only [Plain.append_iff]
    exact ⟨⟨by decide, plain array.element List.mem_cons_self⟩, by decide⟩
  have classes : Plain (", ".intercalate
      (array.types.map fun type => type.spelling ++ ".class")) := by
    refine Plain.intercalate (by decide) fun text member => ?_
    obtain ⟨type, typeMember, rfl⟩ := List.mem_map.1 member
    exact .classOf (plain type (List.mem_cons_of_mem _ typeMember))
  have empty : Shifts (codeElements "\x7b\x7d".toList) 0 0 := fun _ => rfl
  have opens : Shifts (codeElements "\x7b ".toList) 0 1 := fun _ => rfl
  have closes : Shifts (codeElements " \x7d".toList) 1 0 := fun _ => rfl
  rw [ClassArray.text]
  split_ifs
  · refine codeLine ((CodeLine.append_iff _ _).2 ⟨.of_plain start, by decide⟩) ?_
    exact shifts_code_append (shifts_plain start) empty
  · have inside := shifts_code_append (shifts_code_append opens ((shifts_plain classes).deepen 1))
      closes
    refine codeLine ?_ ?_
    · rw [CodeLine.append_iff, CodeLine.append_iff, CodeLine.append_iff]
      exact ⟨⟨⟨.of_plain start, by decide⟩, .of_plain classes⟩, by decide⟩
    · have whole := shifts_code_append (shifts_plain start) inside
      rwa [← String.append_assoc, ← String.append_assoc] at whole

/-- The quotient of two plain expressions. -/
theorem quotient {text : String} (dividend divisor : List Char)
    (parts : text.toList = dividend ++ (['/', ' '] ++ divisor))
    (plainDividend : dividend.all isPlain = true) (plainDivisor : divisor.all isPlain = true) :
    InLine (.code text) := by
  rw [List.all_eq_true] at plainDividend plainDivisor
  refine ⟨?_, ?_, ?_⟩
  · have first := reads_code fun c member => isCode_of_isPlain (plainDividend c member)
    have second := reads_code fun c member => isCode_of_isPlain (plainDivisor c member)
    have reads := first.append (reads_quotient.append second)
    rw [← codeElements_append, ← codeElements_append, ← parts] at reads
    exact reads
  · have noFeed : ∀ chars : List Char, (∀ c ∈ chars, isPlain c = true) → '\n' ∉ chars :=
      fun chars plain member => absurd (plain _ member) (by decide)
    rw [OneLine, Fragment.text, parts]
    simp only [List.mem_append, not_or]
    exact ⟨noFeed _ plainDividend, by decide, noFeed _ plainDivisor⟩
  · have braceless : ∀ c, isPlain c = true → c ≠ '\x7b' ∧ c ≠ '\x7d' :=
      fun c plain => (isPlain_iff.1 plain).2.2.2.2.2.2
    refine shifts_code ?_
    rw [parts]
    exact List.forall_mem_append.2 ⟨fun c member => braceless c (plainDividend c member),
      List.forall_mem_append.2 ⟨List.forall_mem_cons.2 ⟨by decide, by simp⟩,
        fun c member => braceless c (plainDivisor c member)⟩⟩

theorem realLiteral (value : Binary64) : InLine (.code (Java.realLiteral value)) := by
  cases value with
  | nan =>
      exact quotient "(0.0d ".toList "0.0)".toList (by decide)
        (by decide) (by decide)
  | infinite negative =>
      cases negative with
      | true =>
          exact quotient "(-1.0d ".toList "0.0)".toList (by decide)
            (by decide) (by decide)
      | false =>
          exact quotient "(1.0d ".toList "0.0)".toList (by decide)
            (by decide) (by decide)
  | finite negative significand exponent normal =>
      exact code (.write Literal.fullLayout _)

end Fragment.InLine

namespace Fragment

def ofLiteral : Literal → Fragment
  | .text value => quoted value
  | .boolean value => code (toString value)
  | .integer value => code (literal (.integer value))
  | .real value => code (realLiteral value)

theorem text_ofLiteral (value : Literal) : (ofLiteral value).text = literal value := by
  cases value <;> rfl

theorem ofLiteral_mapText (change : String → String) (value : Literal) :
    ofLiteral (value.mapText change) = (ofLiteral value).mapText change := by
  cases value <;> rfl

theorem inLine_ofLiteral (value : Literal) : (ofLiteral value).InLine := by
  cases value with
  | boolean value =>
      exact .code (by cases value <;> decide)
  | integer value =>
      refine .code ?_
      rw [literal]
      split_ifs
      · exact .integer _
      · exact (Plain.append_iff _ _).2 ⟨.integer _, by decide⟩
  | real value =>
      exact .realLiteral value
  | text value =>
      exact .quoted value

def commas (fragments : List Fragment) : List Fragment :=
  fragments.intersperse (code ", ")

theorem source_commas (fragments : List Fragment) :
    source (commas fragments) = Statement.commas (fragments.map text) := by
  induction fragments with
  | nil =>
      rfl
  | cons fragment rest inductionHypothesis =>
      cases rest with
      | nil =>
          simp [commas, Statement.commas]
      | cons next rest =>
          rw [Statement.commas, List.map_cons, List.map_cons, String.intercalate_cons_cons,
            ← List.map_cons, ← Statement.commas, ← inductionHypothesis]
          simp [commas, Fragment.text, String.append_assoc]

theorem spaced_commas (fragments : List Fragment) {rest : List Fragment}
    (apart : beginsApart (source rest).toList = true) (spaced : Spaced rest) :
    Spaced (commas fragments ++ rest) := by
  induction fragments with
  | nil =>
      exact spaced
  | cons fragment others inductionHypothesis =>
      cases others with
      | nil =>
          cases fragment with
          | code text =>
              exact spaced
          | comment text =>
              exact spaced
          | quoted text =>
              exact ⟨apart, spaced⟩
      | cons next others =>
          have later : Spaced (code ", " :: (commas (next :: others) ++ rest)) :=
            inductionHypothesis
          cases fragment with
          | code text =>
              exact later
          | comment text =>
              exact later
          | quoted text =>
              have comma : beginsApart ", ".toList = true := by decide
              have whole := beginsApart_append comma
                (source (commas (next :: others) ++ rest)).toList
              have parts : source (code ", " :: (commas (next :: others) ++ rest)) =
                  ", " ++ source (commas (next :: others) ++ rest) :=
                source_cons _ _
              rw [← String.toList_append, ← parts] at whole
              exact ⟨whole, later⟩

theorem inLine_commas {fragments : List Fragment}
    (each : ∀ fragment ∈ fragments, fragment.InLine) :
    ∀ fragment ∈ commas fragments, fragment.InLine := by
  induction fragments with
  | nil =>
      exact List.forall_mem_nil _
  | cons fragment rest inductionHypothesis =>
      cases rest with
      | nil =>
          exact each
      | cons next rest =>
          obtain ⟨here, later⟩ := List.forall_mem_cons.1 each
          refine List.forall_mem_cons.2 ⟨here, List.forall_mem_cons.2 ⟨.code (by decide), ?_⟩⟩
          exact inductionHypothesis later

theorem mapText_commas (change : String → String) (fragments : List Fragment) :
    (commas fragments).map (mapText change) = commas (fragments.map (mapText change)) := by
  induction fragments with
  | nil =>
      rfl
  | cons fragment rest inductionHypothesis =>
      cases rest with
      | nil =>
          rfl
      | cons next rest =>
          have later : (commas (next :: rest)).map (mapText change) =
              commas ((next :: rest).map (mapText change)) :=
            inductionHypothesis
          change mapText change fragment :: code ", " :: (commas (next :: rest)).map _ = _
          rw [later]
          rfl

theorem quoted?_commas (fragments : List Fragment) :
    (commas fragments).filterMap quoted? = fragments.filterMap quoted? := by
  induction fragments with
  | nil =>
      rfl
  | cons fragment rest inductionHypothesis =>
      cases rest with
      | nil =>
          rfl
      | cons next rest =>
          have later : (code ", " :: commas (next :: rest)).filterMap quoted? =
              (next :: rest).filterMap quoted? :=
            inductionHypothesis
          change (fragment :: code ", " :: commas (next :: rest)).filterMap quoted? = _
          rw [List.filterMap_cons, later, ← List.filterMap_cons]

end Fragment

/-! ## Statements -/

namespace Operand

def fragment : Operand → Fragment
  | literal value => .ofLiteral value
  | bean name => .code name

theorem text_fragment (operand : Operand) : operand.fragment.text = operand.text := by
  cases operand with
  | literal value =>
      exact Fragment.text_ofLiteral value
  | bean name =>
      rfl

theorem inLine_fragment {operand : Operand} (plain : ∀ name ∈ operand.named?, Plain name) :
    operand.fragment.InLine := by
  cases operand with
  | literal value =>
      exact Fragment.inLine_ofLiteral value
  | bean name =>
      exact .code (plain name rfl)

def mapText (change : String → String) : Operand → Operand
  | literal value => literal (value.mapText change)
  | bean name => bean name

theorem fragment_mapText (change : String → String) (operand : Operand) :
    (operand.mapText change).fragment = operand.fragment.mapText change := by
  cases operand with
  | literal value =>
      exact Fragment.ofLiteral_mapText change value
  | bean name =>
      rfl

end Operand

namespace Statement

def helperFragments (helper : TypeUse) (method : String) (arguments : List Fragment) :
    List Fragment :=
  .code (helper.spelling ++ "." ++ method ++ "(") ::
    (Fragment.commas arguments ++ [.code ")", .code ";"])

def fragments : Statement → List Fragment
  | declare type name value =>
      [.code (type.spelling ++ " " ++ name ++ " = "), .ofLiteral value, .code ";"]
  | create type name arguments =>
      .code (type.spelling ++ " " ++ name ++ " = new " ++ type.spelling ++ "(") ::
        (Fragment.commas (arguments.map Operand.fragment) ++ [.code ");"])
  | createHidden helper type name parameters arguments =>
      .code (type.spelling ++ " " ++ name ++ " = ") ::
        helperFragments helper "instantiate"
          (.code (classOf type) :: .code parameters.text :: arguments.map Operand.fragment)
  | publish bean name =>
      [.code "beanFactory.registerSingleton(", .quoted bean, .code (", " ++ name ++ ");")]
  | callSetter name setter value =>
      [.code (name ++ "." ++ setter ++ "("), value.fragment, .code ");"]
  | callHiddenSetter helper type name setter parameters value =>
      helperFragments helper "invoke"
        [.code (classOf type), .code name, .quoted setter, .code parameters.text, value.fragment]
  | assign name field value =>
      [.code (name ++ "." ++ field ++ " = "), value.fragment, .code ";"]
  | assignHidden helper type name field value =>
      helperFragments helper "setField"
        [.code (classOf type), .code name, .quoted field, value.fragment]
  | call name method =>
      [.code (name ++ "." ++ method ++ "();")]
  | callHidden helper type name method parameters =>
      helperFragments helper "invoke"
        [.code (classOf type), .code name, .quoted method, .code parameters.text]

theorem source_helperFragments (helper : TypeUse) (method : String)
    (arguments : List Fragment) :
    Fragment.source (helperFragments helper method arguments) =
      helperCall helper method (arguments.map Fragment.text) ++ ";" := by
  simp only [helperFragments, helperCall, Fragment.source_cons, Fragment.source_append,
    Fragment.source_commas, Fragment.source_nil, Fragment.text, String.append_assoc,
    String.append_empty]

theorem source_ended (start : String) (fragment : Fragment) (ending : String) :
    Fragment.source [.code start, fragment, .code ending] = start ++ fragment.text ++ ending := by
  rw [Fragment.source_cons, Fragment.source_cons, Fragment.source_cons, Fragment.source_nil,
    String.append_empty, String.append_assoc]
  rfl

theorem source_fragments (statement : Statement) :
    Fragment.source statement.fragments = statement.text := by
  have operands : ∀ arguments : List Operand,
      (arguments.map Operand.fragment).map Fragment.text = arguments.map Operand.text := by
    intro arguments
    rw [List.map_map]
    exact List.map_congr_left fun operand _ => operand.text_fragment
  cases statement with
  | declare type name value =>
      rw [fragments, source_ended, Fragment.text_ofLiteral]
      rfl
  | create type name arguments =>
      rw [fragments, Fragment.source_cons, Fragment.source_append, Fragment.source_commas,
        operands, Fragment.source_cons, Fragment.source_nil, String.append_empty,
        ← String.append_assoc]
      rfl
  | createHidden helper type name parameters arguments =>
      rw [fragments, Fragment.source_cons, source_helperFragments, List.map_cons,
        List.map_cons, operands, ← String.append_assoc]
      rfl
  | publish bean name =>
      rw [fragments, source_ended, ← String.append_assoc, ← String.append_assoc]
      rfl
  | callSetter name setter value =>
      rw [fragments, source_ended, Operand.text_fragment]
      rfl
  | callHiddenSetter helper type name setter parameters value =>
      rw [fragments, source_helperFragments, List.map_cons, List.map_cons, List.map_cons,
        List.map_cons, List.map_cons, Operand.text_fragment]
      rfl
  | assign name field value =>
      rw [fragments, source_ended, Operand.text_fragment]
      rfl
  | assignHidden helper type name field value =>
      rw [fragments, source_helperFragments, List.map_cons, List.map_cons, List.map_cons,
        List.map_cons, Operand.text_fragment]
      rfl
  | call name method =>
      rw [fragments, Fragment.source_cons, Fragment.source_nil, String.append_empty]
      rfl
  | callHidden helper type name method parameters =>
      rw [fragments, source_helperFragments]
      rfl

/-- A fragment before an end of a statement that begins apart. -/
theorem spaced_ended (start : String) (fragment : Fragment) {ending : String}
    (apart : beginsApart ending.toList = true) :
    Fragment.Spaced [.code start, fragment, .code ending] := by
  cases fragment with
  | code text =>
      trivial
  | comment text =>
      trivial
  | quoted text =>
      refine ⟨?_, trivial⟩
      rw [Fragment.source_cons, Fragment.source_nil, String.append_empty]
      exact apart

theorem spaced_helperFragments (helper : TypeUse) (method : String)
    (arguments : List Fragment) : Fragment.Spaced (helperFragments helper method arguments) := by
  refine Fragment.spaced_commas arguments ?_ trivial
  rw [Fragment.source_cons, String.toList_append]
  exact beginsApart_append (by decide) _

theorem spaced_fragments (statement : Statement) : Fragment.Spaced statement.fragments := by
  cases statement with
  | declare type name value =>
      exact spaced_ended _ _ (by decide)
  | create type name arguments =>
      refine Fragment.spaced_commas (arguments.map Operand.fragment) ?_ trivial
      rw [Fragment.source_cons, String.toList_append]
      exact beginsApart_append (by decide) _
  | createHidden helper type name parameters arguments =>
      exact spaced_helperFragments helper "instantiate" _
  | publish bean name =>
      have apart : beginsApart ", ".toList = true := by decide
      refine spaced_ended _ (.quoted bean) ?_
      rw [String.append_assoc, String.toList_append]
      exact beginsApart_append apart _
  | callSetter name setter value =>
      exact spaced_ended _ _ (by decide)
  | callHiddenSetter helper type name setter parameters value =>
      exact spaced_helperFragments helper _ _
  | assign name field value =>
      exact spaced_ended _ _ (by decide)
  | assignHidden helper type name field value =>
      exact spaced_helperFragments helper _ _
  | call name method =>
      trivial
  | callHidden helper type name method parameters =>
      exact spaced_helperFragments helper _ _

theorem inLine_helperFragments {helper : TypeUse} {method : String} {arguments : List Fragment}
    (plainHelper : Plain helper.spelling) (plainMethod : Plain method)
    (each : ∀ argument ∈ arguments, argument.InLine) :
    ∀ fragment ∈ helperFragments helper method arguments, fragment.InLine := by
  refine List.forall_mem_cons.2 ⟨.code ?_, List.forall_mem_append.2 ⟨?_, ?_⟩⟩
  · simp only [Plain.append_iff]
    exact ⟨⟨⟨plainHelper, by decide⟩, plainMethod⟩, by decide⟩
  · exact Fragment.inLine_commas each
  · refine List.forall_mem_cons.2 ⟨.code (by decide), List.forall_mem_singleton.2 ?_⟩
    exact .code (by decide)

theorem inLine_operands {arguments : List Operand}
    (plain : ∀ name ∈ arguments.filterMap Operand.named?, Plain name) :
    ∀ fragment ∈ arguments.map Operand.fragment, fragment.InLine := by
  refine List.forall_mem_map.2 fun operand member => ?_
  refine operand.inLine_fragment fun name isName => ?_
  exact plain name (List.mem_filterMap.2 ⟨operand, member, isName⟩)

theorem inLine_ended {start ending : String} {fragment : Fragment} (plainStart : Plain start)
    (inLine : fragment.InLine) (plainEnding : Plain ending) :
    ∀ part ∈ [.code start, fragment, .code ending], part.InLine :=
  List.forall_mem_cons.2 ⟨.code plainStart,
    List.forall_mem_cons.2 ⟨inLine, List.forall_mem_singleton.2 (.code plainEnding)⟩⟩

/-- The classes that are passed to the helper: that of an object and those of
parameters. -/
theorem plain_classes {helper type : TypeUse} {parameters : ClassArray}
    (types : ∀ use ∈ helper :: type :: parameters.element :: parameters.types,
      Plain use.spelling) :
    Plain helper.spelling ∧ Plain type.spelling ∧ Plain (classOf type) ∧
      (Fragment.code parameters.text).InLine := by
  obtain ⟨plainHelper, others⟩ := List.forall_mem_cons.1 types
  obtain ⟨plainType, inArray⟩ := List.forall_mem_cons.1 others
  exact ⟨plainHelper, plainType, .classOf plainType, .classArray inArray⟩

/-- A statement is written in one line, and its code is read as it is written, when its
names are plain. -/
theorem inLine_fragments {statement : Statement} (plain : statement.PlainNames) :
    ∀ fragment ∈ statement.fragments, fragment.InLine := by
  obtain ⟨declared, used, selected, types⟩ := plain
  cases statement with
  | declare type name value =>
      have plainType := types type List.mem_cons_self
      have start : Plain (type.spelling ++ " " ++ name ++ " = ") := by
        simp only [Plain.append_iff]
        exact ⟨⟨⟨plainType, by decide⟩, declared name rfl⟩, by decide⟩
      exact inLine_ended start (Fragment.inLine_ofLiteral value) (by decide)
  | create type name arguments =>
      have plainType := types type List.mem_cons_self
      refine List.forall_mem_cons.2 ⟨.code ?_, List.forall_mem_append.2 ⟨?_, ?_⟩⟩
      · simp only [Plain.append_iff]
        exact ⟨⟨⟨⟨⟨plainType, by decide⟩, declared name rfl⟩, by decide⟩, plainType⟩, by decide⟩
      · exact Fragment.inLine_commas (inLine_operands used)
      · exact List.forall_mem_singleton.2 (.code (by decide))
  | createHidden helper type name parameters arguments =>
      obtain ⟨plainHelper, plainType, plainClass, inLineArray⟩ := plain_classes types
      refine List.forall_mem_cons.2 ⟨.code ?_, ?_⟩
      · simp only [Plain.append_iff]
        exact ⟨⟨⟨plainType, by decide⟩, declared name rfl⟩, by decide⟩
      · refine inLine_helperFragments plainHelper (by decide) ?_
        exact List.forall_mem_cons.2
          ⟨.code plainClass, List.forall_mem_cons.2 ⟨inLineArray, inLine_operands used⟩⟩
  | publish bean name =>
      have ending : Plain (", " ++ name ++ ");") := by
        simp only [Plain.append_iff]
        exact ⟨⟨by decide, used name List.mem_cons_self⟩, by decide⟩
      exact inLine_ended (by decide) (.quoted bean) ending
  | callSetter name setter value =>
      obtain ⟨plainName, plainValue⟩ := List.forall_mem_cons.1 used
      have start : Plain (name ++ "." ++ setter ++ "(") := by
        simp only [Plain.append_iff]
        exact ⟨⟨⟨plainName, by decide⟩, selected setter rfl⟩, by decide⟩
      refine inLine_ended start (Operand.inLine_fragment fun bean isBean => ?_) (by decide)
      exact plainValue bean (Option.mem_toList.2 isBean)
  | callHiddenSetter helper type name setter parameters value =>
      obtain ⟨plainHelper, -, plainClass, inLineArray⟩ := plain_classes types
      obtain ⟨plainName, plainValue⟩ := List.forall_mem_cons.1 used
      have inLineValue : value.fragment.InLine :=
        Operand.inLine_fragment fun bean isBean =>
          plainValue bean (Option.mem_toList.2 isBean)
      refine inLine_helperFragments plainHelper (by decide) ?_
      simp only [List.forall_mem_cons]
      exact ⟨.code plainClass, .code plainName, .quoted setter, inLineArray, inLineValue,
        List.forall_mem_nil _⟩
  | assign name field value =>
      obtain ⟨plainName, plainValue⟩ := List.forall_mem_cons.1 used
      have start : Plain (name ++ "." ++ field ++ " = ") := by
        simp only [Plain.append_iff]
        exact ⟨⟨⟨plainName, by decide⟩, selected field rfl⟩, by decide⟩
      refine inLine_ended start (Operand.inLine_fragment fun bean isBean => ?_) (by decide)
      exact plainValue bean (Option.mem_toList.2 isBean)
  | assignHidden helper type name field value =>
      obtain ⟨plainHelper, others⟩ := List.forall_mem_cons.1 types
      have plainType := others type List.mem_cons_self
      obtain ⟨plainName, plainValue⟩ := List.forall_mem_cons.1 used
      have inLineValue : value.fragment.InLine :=
        Operand.inLine_fragment fun bean isBean =>
          plainValue bean (Option.mem_toList.2 isBean)
      refine inLine_helperFragments plainHelper (by decide) ?_
      simp only [List.forall_mem_cons]
      exact ⟨.code (.classOf plainType), .code plainName, .quoted field, inLineValue,
        List.forall_mem_nil _⟩
  | call name method =>
      refine List.forall_mem_singleton.2 (.code ?_)
      simp only [Plain.append_iff]
      exact ⟨⟨⟨used name List.mem_cons_self, by decide⟩, selected method rfl⟩, by decide⟩
  | callHidden helper type name method parameters =>
      obtain ⟨plainHelper, -, plainClass, inLineArray⟩ := plain_classes types
      refine inLine_helperFragments plainHelper (by decide) ?_
      simp only [List.forall_mem_cons]
      exact ⟨.code plainClass, .code (used name List.mem_cons_self), .quoted method,
        inLineArray, List.forall_mem_nil _⟩

theorem oneLine {statement : Statement} (plain : statement.PlainNames) :
    OneLine statement.text := by
  intro member
  rw [← source_fragments, Fragment.source, String.toList_join, List.mem_flatMap] at member
  obtain ⟨text, textMember, inText⟩ := member
  obtain ⟨fragment, fragmentMember, rfl⟩ := List.mem_map.1 textMember
  exact (inLine_fragments plain fragment fragmentMember).oneLine inText

/-- A statement with other texts: those of literals, of published beans, and of the names
that are passed to the helper. -/
def mapTexts (change : String → String) : Statement → Statement
  | declare type name value => declare type name (value.mapText change)
  | create type name arguments => create type name (arguments.map (·.mapText change))
  | createHidden helper type name parameters arguments =>
      createHidden helper type name parameters (arguments.map (·.mapText change))
  | publish bean name => publish (change bean) name
  | callSetter name setter value => callSetter name setter (value.mapText change)
  | callHiddenSetter helper type name setter parameters value =>
      callHiddenSetter helper type name (change setter) parameters (value.mapText change)
  | assign name field value => assign name field (value.mapText change)
  | assignHidden helper type name field value =>
      assignHidden helper type name (change field) (value.mapText change)
  | call name method => call name method
  | callHidden helper type name method parameters =>
      callHidden helper type name (change method) parameters

theorem fragments_mapTexts (change : String → String) (statement : Statement) :
    (statement.mapTexts change).fragments =
      statement.fragments.map (Fragment.mapText change) := by
  have operands : ∀ arguments : List Operand,
      (arguments.map (·.mapText change)).map Operand.fragment =
        (arguments.map Operand.fragment).map (Fragment.mapText change) := by
    intro arguments
    rw [List.map_map, List.map_map]
    exact List.map_congr_left fun operand _ => operand.fragment_mapText change
  cases statement <;>
    simp only [mapTexts, fragments, helperFragments, List.map_cons, List.map_append,
      List.map_nil, Fragment.mapText_commas, operands, Fragment.mapText,
      Operand.fragment_mapText, Fragment.ofLiteral_mapText]

def texts (statement : Statement) : List String :=
  statement.fragments.filterMap Fragment.quoted?

end Statement

end Java

end AheadOfTime
