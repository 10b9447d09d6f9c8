import Mathlib.Data.List.Forall2
import AheadOfTime.Hint.Basic
import AheadOfTime.Java.Statement
import AheadOfTime.Proofs.Java.Characters

/-!
# What a statement says

The variables that a statement declares and uses, the member that it names after a
variable, and the types that it writes.
-/

namespace AheadOfTime.Java

inductive Operand.IsWrittenAs : Operand → String → Prop where
  | literal (value : Literal) : IsWrittenAs (.literal value) (Java.literal value)
  | bean (name : String) : IsWrittenAs (.bean name) name

inductive ClassArray.IsWrittenAs : ClassArray → String → Prop where
  | empty (element : TypeUse) :
      IsWrittenAs ⟨element, []⟩ ("new " ++ element.spelling ++ "<?>[] " ++ "\x7b\x7d")
  | filled (element : TypeUse) {types : List TypeUse} (nonempty : types ≠ []) :
      IsWrittenAs ⟨element, types⟩
        ("new " ++ element.spelling ++ "<?>[] " ++ "\x7b " ++
          ", ".intercalate (types.map fun type => type.spelling ++ ".class") ++ " \x7d")

/-- The line of each form of statement.  What is hidden is reached through the methods of the
helper, which get the class first. -/
inductive Statement.IsWrittenAs : Statement → String → Prop where
  | declare (type : TypeUse) (name : String) (value : Literal) :
      IsWrittenAs (.declare type name value)
        (type.spelling ++ " " ++ name ++ " = " ++ Java.literal value ++ ";")
  | create (type : TypeUse) (name : String) {arguments : List Operand} {texts : List String}
      (written : List.Forall₂ Operand.IsWrittenAs arguments texts) :
      IsWrittenAs (.create type name arguments)
        (type.spelling ++ " " ++ name ++ " = new " ++ type.spelling ++ "(" ++
          ", ".intercalate texts ++ ");")
  | createHidden (helper type : TypeUse) (name : String) {parameters : ClassArray}
      {array : String} (arrayWritten : parameters.IsWrittenAs array) {arguments : List Operand}
      {texts : List String} (written : List.Forall₂ Operand.IsWrittenAs arguments texts) :
      IsWrittenAs (.createHidden helper type name parameters arguments)
        (type.spelling ++ " " ++ name ++ " = " ++ helper.spelling ++ ".instantiate(" ++
          ", ".intercalate ((type.spelling ++ ".class") :: array :: texts) ++ ");")
  | publish (bean name : String) :
      IsWrittenAs (.publish bean name)
        ("beanFactory.registerSingleton(" ++ stringLiteral bean ++ ", " ++ name ++ ");")
  | callSetter (name setter : String) {value : Operand} {text : String}
      (written : value.IsWrittenAs text) :
      IsWrittenAs (.callSetter name setter value) (name ++ "." ++ setter ++ "(" ++ text ++ ");")
  | callHiddenSetter (helper type : TypeUse) (name setter : String) {parameters : ClassArray}
      {array : String} (arrayWritten : parameters.IsWrittenAs array) {value : Operand}
      {text : String} (written : value.IsWrittenAs text) :
      IsWrittenAs (.callHiddenSetter helper type name setter parameters value)
        (helper.spelling ++ ".invoke(" ++ ", ".intercalate
          [type.spelling ++ ".class", name, stringLiteral setter, array, text] ++ ");")
  | assign (name field : String) {value : Operand} {text : String}
      (written : value.IsWrittenAs text) :
      IsWrittenAs (.assign name field value) (name ++ "." ++ field ++ " = " ++ text ++ ";")
  | assignHidden (helper type : TypeUse) (name field : String) {value : Operand} {text : String}
      (written : value.IsWrittenAs text) :
      IsWrittenAs (.assignHidden helper type name field value)
        (helper.spelling ++ ".setField(" ++ ", ".intercalate
          [type.spelling ++ ".class", name, stringLiteral field, text] ++ ");")
  | call (name method : String) :
      IsWrittenAs (.call name method) (name ++ "." ++ method ++ "();")
  | callHidden (helper type : TypeUse) (name method : String) {parameters : ClassArray}
      {array : String} (arrayWritten : parameters.IsWrittenAs array) :
      IsWrittenAs (.callHidden helper type name method parameters)
        (helper.spelling ++ ".invoke(" ++ ", ".intercalate
          [type.spelling ++ ".class", name, stringLiteral method, array] ++ ");")

theorem Operand.isWrittenAs_text (operand : Operand) : operand.IsWrittenAs operand.text := by
  cases operand with
  | literal value =>
      exact .literal value
  | bean name =>
      exact .bean name

theorem ClassArray.isWrittenAs_text (array : ClassArray) : array.IsWrittenAs array.text := by
  obtain ⟨element, types⟩ := array
  by_cases empty : types = []
  · subst empty
    exact .empty element
  · have written := IsWrittenAs.filled element empty
    have nonempty : types.isEmpty = false := List.isEmpty_eq_false_iff.2 empty
    simpa only [text, nonempty, Bool.false_eq_true, if_false, String.append_assoc] using written

/-- A call of the helper as a whole statement. -/
theorem Statement.helperCall_append {opening method : String}
    (opens : opening = "." ++ method ++ "(") (helper : TypeUse) (arguments : List String) :
    helper.spelling ++ opening ++ ", ".intercalate arguments ++ ");" =
      helperCall helper method arguments ++ ";" := by
  rw [opens]
  simp only [helperCall, commas, String.append_assoc, String.reduceAppend]

theorem Statement.isWrittenAs_text (statement : Statement) :
    statement.IsWrittenAs statement.text := by
  have operands : ∀ arguments : List Operand,
      List.Forall₂ Operand.IsWrittenAs arguments (arguments.map Operand.text) := fun arguments =>
    List.forall₂_map_right_iff.2 (List.forall₂_same.2 fun operand _ => operand.isWrittenAs_text)
  have invokes : ".invoke(" = "." ++ "invoke" ++ "(" := by decide
  cases statement with
  | declare type name value =>
      exact .declare type name value
  | create type name arguments =>
      exact .create type name (operands arguments)
  | createHidden helper type name parameters arguments =>
      have written := IsWrittenAs.createHidden helper type name parameters.isWrittenAs_text
        (operands arguments)
      have instantiates : ".instantiate(" = "." ++ "instantiate" ++ "(" := by decide
      have call := helperCall_append instantiates helper
        ((type.spelling ++ ".class") :: parameters.text :: arguments.map Operand.text)
      simp only [String.append_assoc] at call written
      rw [call] at written
      simp only [← String.append_assoc] at written
      exact written
  | publish bean name =>
      exact .publish bean name
  | callSetter name setter value =>
      exact .callSetter name setter value.isWrittenAs_text
  | callHiddenSetter helper type name setter parameters value =>
      have written := IsWrittenAs.callHiddenSetter helper type name setter
        parameters.isWrittenAs_text value.isWrittenAs_text
      rw [helperCall_append invokes] at written
      exact written
  | assign name field value =>
      exact .assign name field value.isWrittenAs_text
  | assignHidden helper type name field value =>
      have written := IsWrittenAs.assignHidden helper type name field value.isWrittenAs_text
      have sets : ".setField(" = "." ++ "setField" ++ "(" := by decide
      rw [helperCall_append sets] at written
      exact written
  | call name method =>
      exact .call name method
  | callHidden helper type name method parameters =>
      have written := IsWrittenAs.callHidden helper type name method parameters.isWrittenAs_text
      rw [helperCall_append invokes] at written
      exact written

def Operand.named? : Operand → Option String
  | literal _ => none
  | bean name => some name

namespace Statement

def declared? : Statement → Option String
  | declare _ name _ => some name
  | create _ name _ => some name
  | createHidden _ _ name _ _ => some name
  | publish .. | callSetter .. | callHiddenSetter .. | assign .. | assignHidden .. | call ..
  | callHidden .. => none

def used : Statement → List String
  | declare .. => []
  | create _ _ arguments => arguments.filterMap Operand.named?
  | createHidden _ _ _ _ arguments => arguments.filterMap Operand.named?
  | publish _ name => [name]
  | callSetter name _ value => name :: value.named?.toList
  | callHiddenSetter _ _ name _ _ value => name :: value.named?.toList
  | assign name _ value => name :: value.named?.toList
  | assignHidden _ _ name _ value => name :: value.named?.toList
  | call name _ => [name]
  | callHidden _ _ name _ _ => [name]

/-- The member that a statement names after a variable. -/
def selected? : Statement → Option String
  | callSetter _ setter _ => some setter
  | assign _ field _ => some field
  | call _ method => some method
  | declare .. | create .. | createHidden .. | publish .. | callHiddenSetter ..
  | assignHidden .. | callHidden .. => none

def types : Statement → List TypeUse
  | declare type _ _ => [type]
  | create type _ _ => [type]
  | createHidden helper type _ parameters _ =>
      helper :: type :: parameters.element :: parameters.types
  | callHiddenSetter helper type _ _ parameters _ =>
      helper :: type :: parameters.element :: parameters.types
  | assignHidden helper type _ _ _ => [helper, type]
  | callHidden helper type _ _ parameters =>
      helper :: type :: parameters.element :: parameters.types
  | publish .. | callSetter .. | assign .. | call .. => []

/-- Whether every variable is declared before it is used, some of them beforehand. -/
def WellScoped (declared : List String) : List Statement → Prop
  | [] => True
  | statement :: rest =>
      (∀ name ∈ statement.used, name ∈ declared) ∧
        WellScoped (statement.declared?.toList ++ declared) rest

theorem WellScoped.mono {declared more : List String} {statements : List Statement}
    (wellScoped : WellScoped declared statements) (contained : ∀ name ∈ declared, name ∈ more) :
    WellScoped more statements := by
  induction statements generalizing declared more with
  | nil =>
      trivial
  | cons statement rest inductionHypothesis =>
      obtain ⟨here, restScoped⟩ := wellScoped
      refine ⟨fun name member => contained name (here name member), ?_⟩
      refine inductionHypothesis restScoped fun name member => ?_
      rcases List.mem_append.1 member with new | old
      · exact List.mem_append_left _ new
      · exact List.mem_append_right _ (contained name old)

theorem WellScoped.append {declared : List String} {first second : List Statement}
    (firstScoped : WellScoped declared first)
    (secondScoped : WellScoped (first.filterMap declared? ++ declared) second) :
    WellScoped declared (first ++ second) := by
  induction first generalizing declared with
  | nil =>
      exact secondScoped
  | cons statement first inductionHypothesis =>
      obtain ⟨here, restScoped⟩ := firstScoped
      refine ⟨here, inductionHypothesis restScoped (secondScoped.mono fun name member => ?_)⟩
      cases new : statement.declared? with
      | none =>
          rw [List.filterMap_cons_none new] at member
          exact member
      | some variableName =>
          rw [List.filterMap_cons_some new] at member
          simp only [List.cons_append, List.mem_cons, List.mem_append, Option.toList_some,
            List.not_mem_nil, false_or] at member ⊢
          rcases member with here | later | known
          · exact Or.inr (Or.inl here)
          · exact Or.inl later
          · exact Or.inr (Or.inr known)

/-- A variable that a statement uses is declared by an earlier statement. -/
theorem WellScoped.used_mem {declared : List String} {before after : List Statement}
    {statement : Statement} (wellScoped : WellScoped declared (before ++ statement :: after))
    {name : String} (member : name ∈ statement.used) :
    name ∈ before.filterMap declared? ∨ name ∈ declared := by
  induction before generalizing declared with
  | nil =>
      exact Or.inr (wellScoped.1 name member)
  | cons first before inductionHypothesis =>
      cases new : first.declared? with
      | none =>
          rw [List.filterMap_cons_none new]
          have restScoped := wellScoped.2
          rw [new] at restScoped
          exact inductionHypothesis restScoped
      | some variableName =>
          rw [List.filterMap_cons_some new]
          rcases inductionHypothesis wellScoped.2 with earlier | known
          · exact Or.inl (List.mem_cons_of_mem _ earlier)
          · rw [new] at known
            rcases List.mem_cons.1 known with here | declaredBefore
            · exact Or.inl (here ▸ List.mem_cons_self)
            · exact Or.inr declaredBefore

end Statement

/-- Whether the names in a statement and its types are written with plain characters. -/
structure Statement.PlainNames (statement : Statement) : Prop where
  declared : ∀ name ∈ statement.declared?, Plain name
  used : ∀ name ∈ statement.used, Plain name
  selected : ∀ name ∈ statement.selected?, Plain name
  types : ∀ type ∈ statement.types, Plain type.spelling

end AheadOfTime.Java
