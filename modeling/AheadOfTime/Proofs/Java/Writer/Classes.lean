import AheadOfTime.Proofs.Java.Writer

/-!
# Writing generated classes

The code of an initializer whose statements hold plain names is sound, and so is that of a
helper: both are well written.
-/

namespace AheadOfTime.Java

theorem sound_packageCode (name : TypeName) : Code.Sound (packageCode name) := by
  unfold packageCode
  split
  · exact Code.sound_nil
  · refine Code.sound_line (by simp) (.plain ?_) (Code.sound_blank Code.sound_nil)
    simp only [Plain.append_iff]
    exact ⟨⟨by decide, .dotted name.package⟩, by decide⟩

/-- All statements end with a semicolon. -/
theorem Statement.text_ne_empty (statement : Statement) : statement.text ≠ "" := by
  have ended : ∀ front ending : String, ending ≠ "" → front ++ ending ≠ "" :=
    fun front ending nonempty empty => nonempty (String.append_eq_empty_iff.1 empty).2
  cases statement with
  | declare type name value =>
      exact ended _ ";" (by decide)
  | create type name arguments =>
      exact ended _ ");" (by decide)
  | createHidden helper type name parameters arguments =>
      exact ended _ ";" (by decide)
  | publish bean name =>
      exact ended _ ");" (by decide)
  | callSetter name setter value =>
      exact ended _ ");" (by decide)
  | callHiddenSetter helper type name setter parameters value =>
      exact ended _ ";" (by decide)
  | assign name field value =>
      exact ended _ ";" (by decide)
  | assignHidden helper type name field value =>
      exact ended _ ";" (by decide)
  | call name method =>
      exact ended _ "();" (by decide)
  | callHidden helper type name method parameters =>
      exact ended _ ";" (by decide)

namespace Initializer

variable (initializer : Initializer)

theorem sound_imports : Code.Sound
    (initializer.imports.declarations.map fun name => .line ("import " ++ name ++ ";")) := by
  refine Code.sound_lines fun name member => ⟨by simp, .plain ?_⟩
  simp only [Plain.append_iff]
  exact ⟨⟨by decide, initializer.plain_declarations name member⟩, by decide⟩

variable {initializer}

theorem sound_method (plain : ∀ statement ∈ initializer.statements, statement.PlainNames)
    {rest : List Code} (others : Code.Sound rest) : Code.Sound (initializer.method :: rest) := by
  have spelled : ∀ type, Plain (initializer.imports.use type).spelling :=
    Plain.spelling initializer.imports
  refine Code.sound_block (.plain ?_) (Code.sound_line (by simp) (.plain ?_) ?_) others
  · simp only [Plain.append_iff]
    exact ⟨⟨by decide, spelled contextType⟩, by decide⟩
  · simp only [Plain.append_iff]
    exact ⟨spelled beanFactoryType, by decide⟩
  · exact Code.sound_lines fun statement member =>
      ⟨statement.text_ne_empty, Statement.braces_text (plain statement member)⟩

theorem sound_declaration
    (plain : ∀ statement ∈ initializer.statements, statement.PlainNames) :
    Code.Sound [initializer.declaration] := by
  have spelled : ∀ type, Plain (initializer.imports.use type).spelling :=
    Plain.spelling initializer.imports
  have simple : Plain initializer.name.simple.text :=
    .of_isIdentifier initializer.name.simple.valid
  refine Code.sound_block (.plain ?_) (Code.sound_blank (Code.sound_line (by simp) (.plain ?_) ?_))
    Code.sound_nil
  · simp only [Plain.append_iff]
    exact ⟨⟨⟨⟨⟨⟨by decide, simple⟩, by decide⟩, spelled initializerType⟩, by decide⟩,
      spelled contextType⟩, by decide⟩
  · exact (Plain.append_iff _ _).2 ⟨by decide, spelled (.lang TypeName.overrideName)⟩
  · exact sound_method plain (Code.sound_blank Code.sound_nil)

theorem wellWritten (plain : ∀ statement ∈ initializer.statements, statement.PlainNames) :
    initializer.source.WellWritten :=
  SourceUnit.wellWritten rfl
    ((sound_packageCode initializer.name).append initializer.sound_imports)
    initializer.codeLine_comment (sound_declaration plain)

end Initializer

namespace Helper

variable (helper : Helper)

theorem plain_lang (simple : Identifier) : Plain (helper.lang simple) :=
  .spelling helper.imports (.lang simple)

theorem sound_importCode (uses : HelperUses) : Code.Sound (importCode uses) := by
  have line : ∀ text : String, Plain text → text ≠ "" → Code.Sound [.line text] :=
    fun text plain nonempty => Code.sound_line nonempty (.plain plain) Code.sound_nil
  have constructor := line "import java.lang.reflect.Constructor;" (by decide +kernel) (by decide)
  have field := line "import java.lang.reflect.Field;" (by decide +kernel) (by decide)
  have method := line "import java.lang.reflect.Method;" (by decide +kernel) (by decide)
  exact ((constructor.onlyIf uses.instantiate).append (field.onlyIf uses.setField)).append
    (method.onlyIf uses.invoke)

/-- A method of the helper is sound when its header is plain, and its lines and the message
of its exception are sound. -/
theorem sound_methodCode {header message : String} {lines : List String} (plain : Plain header)
    (each : ∀ line ∈ lines, line ≠ "" ∧ Plain line) (braces : Braces message 0 0) :
    Code.Sound (helper.methodCode header lines message) := by
  have thrown : Braces ("throw new " ++ helper.lang { text := "IllegalStateException" } ++ "(")
      0 0 := by
    refine .plain ?_
    simp only [Plain.append_iff]
    exact ⟨⟨by decide, helper.plain_lang _⟩, by decide⟩
  have caught : Plain ("catch (" ++ helper.lang { text := "ReflectiveOperationException" } ++
      " ex)") := by
    simp only [Plain.append_iff]
    exact ⟨⟨by decide, helper.plain_lang _⟩, by decide⟩
  have tried : Code.Sound (lines.map .line) :=
    Code.sound_lines fun line member => ⟨(each line member).1, .plain (each line member).2⟩
  have throwing : Code.Sound [.line ("throw new " ++
      helper.lang { text := "IllegalStateException" } ++ "(" ++ message ++ ", ex);")] :=
    Code.sound_line (by simp) ((thrown.append braces).append (.plain (by decide))) Code.sound_nil
  refine Code.sound_blank (Code.sound_block (.plain plain) ?_ Code.sound_nil)
  exact Code.sound_block (.plain (by decide)) tried
    (Code.sound_block (.plain caught) throwing Code.sound_nil)

theorem sound_instantiateCode : Code.Sound helper.instantiateCode := by
  have message : "\"Failed to instantiate \" + type.getName()" =
      Fragment.source [.quoted "Failed to instantiate ", .code " + type.getName()"] := by
    decide +kernel
  refine helper.sound_methodCode ?_ (by decide +kernel) ?_
  · simp only [Plain.append_iff, helper.plain_lang, and_true]
    decide +kernel
  · rw [message]
    refine Fragment.braces_of_inLine ?_ ⟨by decide, trivial⟩
    exact List.forall_mem_cons.2 ⟨.quoted _, List.forall_mem_singleton.2 (.code (by decide))⟩

/-- The message of a failure to reach a member by its name. -/
theorem braces_memberMessage {message : String} (failed : String)
    (parts : message = Fragment.source
      [.quoted failed, .code " + type.getName() + ", .quoted ".", .code " + name"]) :
    Braces message 0 0 := by
  rw [parts]
  refine Fragment.braces_of_inLine ?_ ⟨by decide, by decide, trivial⟩
  simp only [List.forall_mem_cons]
  exact ⟨.quoted _, .code (by decide), .quoted _, .code (by decide), List.forall_mem_nil _⟩

theorem sound_invokeCode : Code.Sound helper.invokeCode := by
  refine helper.sound_methodCode ?_ (by decide +kernel)
    (braces_memberMessage "Failed to invoke " (by decide +kernel))
  simp only [Plain.append_iff, helper.plain_lang, and_true]
  decide +kernel

theorem sound_setFieldCode : Code.Sound helper.setFieldCode := by
  refine helper.sound_methodCode ?_ (by decide +kernel)
    (braces_memberMessage "Failed to set " (by decide +kernel))
  simp only [Plain.append_iff, helper.plain_lang, and_true]
  decide +kernel

theorem sound_declaration : Code.Sound [helper.declaration] := by
  have simple : Plain helper.name.simple.text := .of_isIdentifier helper.name.simple.valid
  have constructor : Code.Sound
      [.blank, .block ("private " ++ helper.name.simple.text ++ "()") []] := by
    refine Code.sound_blank (Code.sound_block (.plain ?_) Code.sound_nil Code.sound_nil)
    simp only [Plain.append_iff]
    exact ⟨⟨by decide, simple⟩, by decide⟩
  refine Code.sound_block (.plain ((Plain.append_iff _ _).2 ⟨by decide, simple⟩)) ?_
    Code.sound_nil
  have methods := ((helper.sound_instantiateCode.onlyIf helper.uses.instantiate).append
    (helper.sound_invokeCode.onlyIf helper.uses.invoke)).append
      (helper.sound_setFieldCode.onlyIf helper.uses.setField)
  exact (constructor.append methods).append (Code.sound_blank Code.sound_nil)

theorem wellWritten : helper.source.WellWritten :=
  SourceUnit.wellWritten rfl ((sound_packageCode helper.name).append (sound_importCode helper.uses))
    (by decide +kernel) helper.sound_declaration

end Helper

end AheadOfTime.Java
