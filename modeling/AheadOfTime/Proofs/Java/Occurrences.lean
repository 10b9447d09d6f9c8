import AheadOfTime.Proofs.Java.Meaning
import AheadOfTime.Proofs.Java.Statement

/-!
# Occurrences of types in generated classes

The types that a generated class writes, and what their names are looked up in: the
imports are read from the lines of the source, as a compiler does.
-/

namespace AheadOfTime.Java

def Code.imported? : Code → Option TypeName
  | .line text => do
      let rest ← Text.dropStart? "import ".toList text.toList
      if rest.getLast? = some ';' then
        (TypeName.parse (String.ofList rest.dropLast)).toOption
      else
        none
  | .blank | .block .. => none

/-- What names in a source file are looked up in, when the given types exist. -/
def SourceUnit.environment (unit : SourceUnit) (existing : List TypeName) : Environment :=
  ⟨unit.name.package, unit.code.filterMap Code.imported?, existing⟩

theorem imported?_import (type : TypeName) :
    Code.imported? (.line ("import " ++ type.canonical ++ ";")) = some type := by
  have rest : Text.dropStart? "import ".toList ("import " ++ type.canonical ++ ";").toList =
      some (type.canonical.toList ++ [';']) := by
    rw [Text.dropStart?_eq_some_iff, String.toList_append, String.toList_append,
      List.append_assoc]
    rfl
  rw [Code.imported?, rest]
  simp [TypeName.parse_canonical, Except.toOption]

theorem imported?_packageCode (name : TypeName) :
    (packageCode name).filterMap Code.imported? = [] := by
  have package : ∀ text, Code.imported? (.line ("package " ++ text ++ ";")) = none := by
    intro text
    have start : Text.dropStart? "import ".toList ("package " ++ text ++ ";").toList = none := by
      rw [String.toList_append, String.toList_append]
      rfl
    rw [Code.imported?, start]
    rfl
  unfold packageCode
  split
  · rfl
  · rw [List.filterMap_cons_none (package _)]
    rfl

theorem imported?_commentCode (text : String) :
    (commentCode text).filterMap Code.imported? = [] := by
  have comment : Code.imported? (.line (" * " ++ text)) = none := by
    have start : Text.dropStart? "import ".toList (" * " ++ text).toList = none := by
      rw [String.toList_append]
      rfl
    rw [Code.imported?, start]
    rfl
  have opening : Code.imported? (.line "/**") = none := rfl
  have closing : Code.imported? (.line " */") = none := rfl
  rw [commentCode, List.filterMap_cons_none opening, List.filterMap_cons_none comment,
    List.filterMap_cons_none closing]
  rfl

namespace Initializer

/-- The occurrences of types in an initializer: in its declaration, in the header and the
first line of its method, and in its statements. -/
def typeUses (initializer : Initializer) : List TypeUse :=
  [initializer.imports.use initializerType, initializer.imports.use contextType,
      initializer.imports.useLang TypeName.overrideName,
      initializer.imports.use beanFactoryType] ++
    initializer.statements.flatMap Statement.types

/-- An initializer imports the owners of simple names that need it. -/
theorem mem_imported (initializer : Initializer) (existing : List TypeName) (type : TypeName) :
    type ∈ (initializer.source.environment existing).imported ↔
      type ∈ initializer.imports.owners ∧ initializer.imports.needsImport type = true := by
  have imported : (initializer.source.environment existing).imported =
      initializer.imports.declarations.filterMap fun name =>
        Code.imported? (.line ("import " ++ name ++ ";")) := by
    have declared : [initializer.declaration].filterMap Code.imported? = [] := rfl
    rw [SourceUnit.environment, source, List.filterMap_append, List.filterMap_append,
      List.filterMap_append, imported?_packageCode, List.filterMap_cons_none rfl,
      imported?_commentCode, List.filterMap_map, declared, List.nil_append, List.append_nil,
      List.append_nil]
    rfl
  rw [imported, List.mem_filterMap]
  simp only [Imports.declarations, List.mem_mergeSort, List.mem_map, List.mem_filter]
  constructor
  · rintro ⟨name, ⟨owner, ⟨member, needed⟩, rfl⟩, read⟩
    rw [imported?_import] at read
    obtain rfl := Option.some.inj read
    exact ⟨member, needed⟩
  · rintro ⟨member, needed⟩
    exact ⟨type.canonical, ⟨type, ⟨member, needed⟩, rfl⟩, imported?_import type⟩

end Initializer

namespace Helper

/-- The types of `java.lang` that the methods of a helper write. -/
def langNames (uses : HelperUses) : List Identifier :=
  (if uses.instantiate then [TypeName.className, { text := "Object" }] else []) ++
    (if uses.invoke then [TypeName.className, { text := "Object" }, TypeName.stringName]
      else []) ++
    (if uses.setField then [TypeName.className, { text := "Object" }, TypeName.stringName]
      else []) ++
    if uses.instantiate || uses.invoke || uses.setField then
      [{ text := "ReflectiveOperationException" }, { text := "IllegalStateException" }]
    else
      []

def typeUses (helper : Helper) : List TypeUse :=
  (langNames helper.uses).map helper.imports.useLang

def reflectPackage : List Identifier :=
  TypeName.langPackage ++ [{ text := "reflect" }]

theorem imported?_reflect (simple : Identifier) :
    Code.imported? (.line ("import java.lang.reflect." ++ simple.text ++ ";")) =
      some ⟨reflectPackage, simple⟩ := by
  have package : TypeName.dotted reflectPackage = "java.lang.reflect" := by
    decide
  have packaged : reflectPackage ≠ [] := by
    decide
  have canonical : TypeName.canonical ⟨reflectPackage, simple⟩ =
      "java.lang.reflect" ++ "." ++ simple.text := by
    rw [← package, TypeName.dotted_append_simple packaged]
  have line : "import java.lang.reflect." ++ simple.text ++ ";" =
      "import " ++ TypeName.canonical ⟨reflectPackage, simple⟩ ++ ";" := by
    rw [canonical, ← String.append_assoc, ← String.append_assoc]
    rfl
  rw [line]
  exact imported?_import _

theorem imported_source (helper : Helper) (existing : List TypeName) :
    (helper.source.environment existing).imported =
      (importCode helper.uses).filterMap Code.imported? := by
  have declared : [helper.declaration].filterMap Code.imported? = [] := rfl
  rw [SourceUnit.environment, source, List.filterMap_append, List.filterMap_append,
    List.filterMap_append, imported?_packageCode, List.filterMap_cons_none rfl,
    imported?_commentCode, declared, List.nil_append, List.append_nil, List.append_nil]

/-- The imports of a helper are types of reflection. -/
theorem mem_imported {helper : Helper} {existing : List TypeName} {type : TypeName}
    (member : type ∈ (helper.source.environment existing).imported) :
    type.simple.text ∈ ["Constructor", "Field", "Method"] := by
  rw [imported_source, List.mem_filterMap] at member
  obtain ⟨line, lineMember, read⟩ := member
  have isLine : line = .line "import java.lang.reflect.Constructor;" ∨
      line = .line "import java.lang.reflect.Field;" ∨
      line = .line "import java.lang.reflect.Method;" := by
    simp only [importCode, List.mem_append] at lineMember
    rcases lineMember with (member | member) | member
    · exact .inl (by split at member <;> simp_all)
    · exact .inr (.inl (by split at member <;> simp_all))
    · exact .inr (.inr (by split at member <;> simp_all))
  rcases isLine with rfl | rfl | rfl
  · obtain rfl := Option.some.inj ((imported?_reflect { text := "Constructor" }).symm.trans read)
    decide
  · obtain rfl := Option.some.inj ((imported?_reflect { text := "Field" }).symm.trans read)
    decide
  · obtain rfl := Option.some.inj ((imported?_reflect { text := "Method" }).symm.trans read)
    decide

theorem not_keyword_of_mem_langNames {uses : HelperUses} {simple : Identifier}
    (member : simple ∈ langNames uses) :
    (TypeName.unpackaged simple).isPrimitive = false ∧
      simple.text ∉ ["Constructor", "Field", "Method"] := by
  obtain ⟨instantiate, invoke, setField⟩ := uses
  revert simple
  cases instantiate <;> cases invoke <;> cases setField <;> decide

/-- The types of `java.lang` in a helper are read as themselves unless they are misread. -/
theorem read?_typeUses (helper : Helper) (existing : List TypeName) :
    ∀ use ∈ helper.typeUses,
      (helper.source.environment existing).read? use.spelling = some use.type ↔
        ¬use.Misread helper.imports (helper.source.environment existing).peers := by
  intro use member
  obtain ⟨simple, simpleMember, rfl⟩ := List.mem_map.1 member
  obtain ⟨notKeyword, notReflect⟩ := not_keyword_of_mem_langNames simpleMember
  refine Environment.read?_useLang_eq_iff notKeyword ?_
  rintro type imported rfl
  exact notReflect (mem_imported imported)

end Helper

end AheadOfTime.Java
