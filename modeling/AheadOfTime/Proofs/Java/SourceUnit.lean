import AheadOfTime.Proofs.Java.Characters
import AheadOfTime.Proofs.Java.TextLiterals

/-!
# The lines of an initializer

The text of an initializer splits into the lines that lead up to the generated method, the
line that gets the bean factory, one line for each statement, and the closing lines.
-/

namespace AheadOfTime.Java

def OneLine (text : String) : Prop :=
  '\n' ∉ text.toList

instance (text : String) : Decidable (OneLine text) :=
  inferInstanceAs (Decidable (_ ∉ _))

namespace OneLine

@[simp]
theorem append_iff (first second : String) :
    OneLine (first ++ second) ↔ OneLine first ∧ OneLine second := by
  simp only [OneLine, String.toList_append, List.mem_append, not_or]

theorem of_codeLine {text : String} (line : CodeLine text) : OneLine text :=
  fun member => absurd (line _ member) (by decide)

theorem of_plain {text : String} (plain : Plain text) : OneLine text :=
  of_codeLine (.of_plain plain)

theorem stringLiteral (text : String) : OneLine (stringLiteral text) :=
  fun member => absurd ((isPrintable_stringLiteral text).2 _ member) (by decide)

end OneLine

namespace Code

theorem bodyLines_append (depth : Nat) (first second : List Code) :
    bodyLines depth (first ++ second) = bodyLines depth first ++ bodyLines depth second := by
  induction first with
  | nil =>
      rfl
  | cons code first inductionHypothesis =>
      rw [List.cons_append, bodyLines, inductionHypothesis, bodyLines, List.append_assoc]

theorem bodyLines_map_line (depth : Nat) (texts : List String) :
    bodyLines depth (texts.map .line) = texts.map (indented depth) := by
  induction texts with
  | nil =>
      rfl
  | cons text texts inductionHypothesis =>
      rw [List.map_cons, bodyLines, inductionHypothesis]
      rfl

theorem split_join_lines {lines : List String} (each : ∀ line ∈ lines, OneLine line) :
    Text.split '\n' (String.join (lines.map fun line => line ++ "\n")).toList =
      lines.map String.toList ++ [[]] := by
  rw [String.toList_join]
  induction lines with
  | nil =>
      rfl
  | cons line lines inductionHypothesis =>
      obtain ⟨plain, eachLater⟩ := List.forall_mem_cons.1 each
      rw [List.map_cons, List.flatMap_cons, String.toList_append, List.append_assoc]
      refine (Text.split_append_cons plain _).trans ?_
      exact congrArg (line.toList :: ·) (inductionHypothesis eachLater)

/-- A text of code splits into the lines of the code, and nothing after the last of
them. -/
theorem split_text {code : List Code} (each : ∀ line ∈ bodyLines 0 code, OneLine line) :
    Text.split '\n' (Code.text code).toList =
      (bodyLines 0 code).map String.toList ++ [[]] :=
  split_join_lines each

theorem indented_zero (text : String) : indented 0 text = text := by
  simp [indented]

theorem indented_one (text : String) : indented 1 text = "\t" ++ text :=
  rfl

theorem indented_two (text : String) : indented 2 text = "\t\t" ++ text :=
  rfl

end Code

namespace Initializer

variable (initializer : Initializer)

/-- The lines of an initializer before the body of its method. -/
def openingLines : List String :=
  (if initializer.name.package = [] then []
    else ["package " ++ initializer.name.packageText ++ ";", ""]) ++
    initializer.imports.declarations.map (fun name => "import " ++ name ++ ";") ++
    ["",
      "/**",
      " * Initializer for \x7b@code " ++ initializer.application.canonical ++
        "\x7d, generated ahead of time.",
      " */",
      "public class " ++ initializer.name.simple.text ++ " implements " ++
        initializer.imports.spelling initializerType ++ "<" ++
        initializer.imports.spelling contextType ++ "> \x7b",
      "",
      "\t@" ++ initializer.imports.spelling (.lang TypeName.overrideName),
      "\tpublic void initialize(" ++ initializer.imports.spelling contextType ++
        " context) \x7b"]

def factoryLine : String :=
  "\t\t" ++ initializer.imports.spelling beanFactoryType ++
    " beanFactory = context.getBeanFactory();"

/-- The lines of an initializer after the statements of its method. -/
def closingLines : List String :=
  ["\t\x7d", "", "\x7d"]

theorem bodyLines_packageCode (name : TypeName) :
    Code.bodyLines 0 (packageCode name) =
      if name.package = [] then [] else ["package " ++ name.packageText ++ ";", ""] := by
  unfold packageCode
  cases name.package with
  | nil =>
      rfl
  | cons first rest =>
      simp [Code.bodyLines, Code.lines, Code.indented_zero]

theorem bodyLines_imports (names : List String) :
    Code.bodyLines 0 (names.map fun name => .line ("import " ++ name ++ ";")) =
      names.map fun name => "import " ++ name ++ ";" := by
  have lines := Code.bodyLines_map_line 0 (names.map fun name => "import " ++ name ++ ";")
  rw [List.map_map, List.map_map] at lines
  refine lines.trans (List.map_congr_left fun name _ => ?_)
  exact Code.indented_zero _

theorem lines_method :
    Code.lines 1 initializer.method =
      ("\tpublic void initialize(" ++ initializer.imports.spelling contextType ++
        " context) \x7b") ::
        initializer.factoryLine ::
          initializer.statements.map (fun statement => "\t\t" ++ statement.text) ++
        ["\t\x7d"] := by
  have statements :
      Code.bodyLines 2 (initializer.statements.map fun statement => .line statement.text) =
        initializer.statements.map fun statement => "\t\t" ++ statement.text := by
    have lines := Code.bodyLines_map_line 2 (initializer.statements.map Statement.text)
    rw [List.map_map, List.map_map] at lines
    exact lines
  have header : Code.indented 1
      ("public void initialize(" ++ initializer.imports.spelling contextType ++ " context)" ++
        " \x7b") =
      "\tpublic void initialize(" ++ initializer.imports.spelling contextType ++
        " context) \x7b" := by
    simp only [Code.indented_one, String.append_assoc]
    rw [← String.append_assoc]
    rfl
  have factory : Code.indented 2
      (initializer.imports.spelling beanFactoryType ++
        " beanFactory = context.getBeanFactory();") = initializer.factoryLine := by
    rw [Code.indented_two, ← String.append_assoc]
    rfl
  simp only [method, Code.lines, Code.bodyLines, Imports.use]
  rw [header, statements, factory]
  rfl

theorem lines_declaration :
    Code.lines 0 initializer.declaration =
      ["public class " ++ initializer.name.simple.text ++ " implements " ++
          initializer.imports.spelling initializerType ++ "<" ++
          initializer.imports.spelling contextType ++ "> \x7b",
        "",
        "\t@" ++ initializer.imports.spelling (.lang TypeName.overrideName)] ++
        Code.lines 1 initializer.method ++ ["", "\x7d"] := by
  have header : ">" ++ " \x7b" = "> \x7b" := rfl
  have override : Code.indented 1
      ("@" ++ initializer.imports.spelling (.lang TypeName.overrideName)) =
      "\t@" ++ initializer.imports.spelling (.lang TypeName.overrideName) := by
    rw [Code.indented_one, ← String.append_assoc]
    rfl
  simp only [declaration, Code.lines, Code.bodyLines, Imports.use, Imports.useLang,
    Code.indented_zero, override, String.append_assoc, header, List.append_nil,
    List.cons_append, List.nil_append, List.append_assoc]

theorem bodyLines_source :
    Code.bodyLines 0 initializer.source.code =
      initializer.openingLines ++
        initializer.factoryLine ::
          initializer.statements.map (fun statement => "\t\t" ++ statement.text) ++
        closingLines := by
  have comment :
      " * " ++ ("Initializer for \x7b@code " ++ initializer.application.canonical ++
        "\x7d, generated ahead of time.") =
      " * Initializer for \x7b@code " ++ initializer.application.canonical ++
        "\x7d, generated ahead of time." := by
    rw [← String.append_assoc, ← String.append_assoc]
    rfl
  simp only [source, Code.bodyLines_append, bodyLines_packageCode, bodyLines_imports,
    Code.bodyLines, lines_declaration, lines_method, commentCode, Code.lines,
    Code.indented_zero, comment, openingLines, closingLines, List.append_nil, List.cons_append,
    List.nil_append, List.append_assoc]

/-- The lines before the comment: the package and the imports. -/
def headLines : List String :=
  (if initializer.name.package = [] then []
    else ["package " ++ initializer.name.packageText ++ ";", ""]) ++
    initializer.imports.declarations.map (fun name => "import " ++ name ++ ";") ++ [""]

/-- The lines between the comment and the body of the method. -/
def classLines : List String :=
  ["public class " ++ initializer.name.simple.text ++ " implements " ++
      initializer.imports.spelling initializerType ++ "<" ++
      initializer.imports.spelling contextType ++ "> \x7b",
    "",
    "\t@" ++ initializer.imports.spelling (.lang TypeName.overrideName),
    "\tpublic void initialize(" ++ initializer.imports.spelling contextType ++
      " context) \x7b"]

theorem openingLines_eq :
    initializer.openingLines =
      initializer.headLines ++
        ["/**",
          " * Initializer for \x7b@code " ++ initializer.application.canonical ++
            "\x7d, generated ahead of time.",
          " */"] ++
        initializer.classLines := by
  simp only [openingLines, headLines, classLines, List.append_assoc, List.cons_append,
    List.nil_append]

theorem plain_declarations : ∀ name ∈ initializer.imports.declarations, Plain name := by
  intro name member
  rw [Imports.declarations, List.mem_mergeSort] at member
  obtain ⟨type, -, rfl⟩ := List.mem_map.1 member
  exact .dotted type.segments

theorem plain_headLines : ∀ line ∈ initializer.headLines, Plain line := by
  have package : ∀ line ∈ (if initializer.name.package = [] then []
      else ["package " ++ initializer.name.packageText ++ ";", ""]), Plain line := by
    split_ifs
    · exact List.forall_mem_nil _
    · simp only [List.forall_mem_cons, Plain.append_iff]
      exact ⟨⟨⟨by decide, .dotted initializer.name.package⟩, by decide⟩, by decide,
        List.forall_mem_nil _⟩
  have imported : ∀ line ∈ initializer.imports.declarations.map
      (fun name => "import " ++ name ++ ";"), Plain line := by
    refine List.forall_mem_map.2 fun name member => ?_
    simp only [Plain.append_iff]
    exact ⟨⟨by decide, initializer.plain_declarations name member⟩, by decide⟩
  exact List.forall_mem_append.2 ⟨List.forall_mem_append.2 ⟨package, imported⟩, by decide⟩

theorem codeLine_classLines : ∀ line ∈ initializer.classLines, CodeLine line := by
  have spelled : ∀ type, CodeLine (initializer.imports.spelling type) :=
    fun type => .of_plain (.spelling initializer.imports type)
  have simple : CodeLine initializer.name.simple.text :=
    .of_plain (.of_isIdentifier initializer.name.simple.valid)
  simp only [classLines, List.forall_mem_cons, CodeLine.append_iff, spelled, simple, and_true]
  decide

theorem plain_factoryLine : Plain initializer.factoryLine := by
  simp only [factoryLine, Plain.append_iff]
  exact ⟨⟨by decide, .spelling initializer.imports beanFactoryType⟩, by decide⟩

theorem oneLine_openingLines : ∀ line ∈ initializer.openingLines, OneLine line := by
  have application : OneLine initializer.application.canonical :=
    .of_plain (.dotted initializer.application.segments)
  rw [openingLines_eq]
  simp only [List.forall_mem_append, List.forall_mem_cons, OneLine.append_iff, application,
    and_true]
  refine ⟨⟨fun line member => ?_, by decide⟩, fun line member => ?_⟩
  · exact .of_plain (initializer.plain_headLines line member)
  · exact .of_codeLine (initializer.codeLine_classLines line member)

/-- The text of an initializer splits into its lines, when its statements are single
lines. -/
theorem split_body
    (each : ∀ statement ∈ initializer.statements, OneLine statement.text) :
    Text.split '\n' initializer.source.body.toList =
      (initializer.openingLines ++
        initializer.factoryLine ::
          initializer.statements.map (fun statement => "\t\t" ++ statement.text) ++
        closingLines ++ [""]).map String.toList := by
  have lines : ∀ line ∈ Code.bodyLines 0 initializer.source.code, OneLine line := by
    rw [bodyLines_source]
    simp only [List.forall_mem_append, List.forall_mem_cons]
    refine ⟨⟨initializer.oneLine_openingLines, .of_plain initializer.plain_factoryLine, ?_⟩, ?_⟩
    · intro line member
      obtain ⟨statement, statementMember, rfl⟩ := List.mem_map.1 member
      exact (OneLine.append_iff _ _).2 ⟨by decide, each statement statementMember⟩
    · decide
  have last : [[]] = [""].map String.toList := rfl
  rw [SourceUnit.body, Code.split_text lines, bodyLines_source, last, ← List.map_append]

end Initializer

end AheadOfTime.Java
