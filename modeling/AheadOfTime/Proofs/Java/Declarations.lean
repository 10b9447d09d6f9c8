import AheadOfTime.Java.Statement
import AheadOfTime.Proofs.Java.LiteralConstants

/-!
# Initialized variables

A variable that is declared for a literal is read as a declaration with the expression of the
literal for its initializer.
-/

namespace AheadOfTime.Java

/-- A variable of a box may be initialized with a value that is boxed so. -/
theorem ConstantType.initializes_boxed (type : ConstantType) :
    type.Initializes type.name.boxed := by
  cases type with
  | boolean | int | long | double =>
      exact .boxed rfl
  | string =>
      exact .same

/-- A variable that is declared and initialized: its type and its name as they are written, and
its initializer. -/
structure Declaration where
  type : String
  name : String
  value : Constant

def declaration? (source : String) : Option Declaration :=
  match readTokens? source.toList with
  | some (.word type :: .word name :: assignment :: rest) =>
      match decodeUnits? type, decodeUnits? name, Constant.ofTokens? rest.dropLast with
      | some type, some name, some value =>
          let type := String.ofList type
          let name := String.ofList name
          if (TypeName.parse type).toOption.isSome ∧ isIdentifier name = true ∧
              assignment = .mark '='.toNat ∧ rest.getLast? = some (.mark ';'.toNat) then
            some ⟨type, name, value⟩
          else
            none
      | _, _, _ => none
  | _ => none

theorem name_table :
    ∀ code < 0x80, isIdentifierPart (Char.ofNat code) = true → isWordUnit code = true := by
  decide +kernel

theorem isWordUnit_of_name {chars : List Char}
    (each : ∀ c ∈ chars, c = '.' ∨ isIdentifierPart c = true) :
    ∀ unit ∈ encodeUnits chars, isWordUnit unit = true := by
  intro unit member
  obtain ⟨c, isChar, isUnit⟩ := List.mem_flatMap.1 member
  by_cases ascii : unit < 0x80
  · have same := eq_of_mem_codeUnits isUnit ascii
    rcases each c isChar with rfl | part
    · rw [← same]
      decide
    · refine name_table unit ascii ?_
      rwa [← same, Char.ofNat_toNat]
  · rw [isWordUnit, decide_eq_true (not_lt.1 ascii)]
    rfl

theorem declaration?_text {type : TypeUse} {name : String} {value : Literal}
    {constant : Constant} (isType : (TypeName.parse type.spelling).toOption.isSome = true)
    (typeEach : ∀ c ∈ type.spelling.toList, c = '.' ∨ isIdentifierPart c = true)
    (isName : isIdentifier name = true)
    (spells : Constant.Spells (literal value).toList constant) :
    declaration? (Statement.declare type name value).text =
      some ⟨type.spelling, name, constant⟩ := by
  obtain ⟨tokens, tokenizes, parsed⟩ := spells
  have typeNonempty : type.spelling.toList ≠ [] := by
    intro none
    rw [String.toList_eq_nil_iff.1 none] at isType
    cases isType
  have nameShape : isIdentifierShape name.toList = true := by
    rw [isIdentifier, Bool.and_eq_true] at isName
    exact isName.1
  have nameNonempty : name.toList ≠ [] := by
    intro none
    rw [none] at nameShape
    cases nameShape
  have typeWord := Tokenizes.word typeNonempty (isWordUnit_of_name typeEach)
  have nameWord := Tokenizes.word nameNonempty
    (isWordUnit_of_name fun c member => .inr (isIdentifierPart_of_shape nameShape member))
  have ended := tokenizes.append_separator (by decide : ';' ∈ [')', ';'])
  have whole := typeWord.append_blank
    (nameWord.append_blank (ended.operator (by decide : '=' ∈ ['=', '/'])))
  have written : (Statement.declare type name value).text =
      type.spelling ++ " " ++ name ++ " = " ++ literal value ++ ";" := rfl
  have text : (Statement.declare type name value).text.toList =
      type.spelling.toList ++ ' ' :: (name.toList ++ ' ' :: '=' :: ' ' ::
        ((literal value).toList ++ [';'])) := by
    have blank : " ".toList = [' '] := rfl
    have assignment : " = ".toList = [' ', '=', ' '] := rfl
    have ending : ";".toList = [';'] := rfl
    simp only [written, String.toList_append, blank, assignment, ending, List.append_assoc,
      List.cons_append, List.nil_append]
  rw [declaration?, text, whole.readTokens?_eq]
  simp only [List.cons_append, List.nil_append, decodeUnits?_encodeUnits, List.dropLast_concat,
    parsed, String.ofList_toList, isType, isName, List.getLast?_concat, and_self, if_true]

end AheadOfTime.Java
