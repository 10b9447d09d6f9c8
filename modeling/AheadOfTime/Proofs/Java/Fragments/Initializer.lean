import AheadOfTime.Proofs.Java.Fragments.Statement
import AheadOfTime.Proofs.Java.SourceUnit

/-!
# The texts in an initializer

The source of an initializer is code around one comment and the text literals of its
statements, so it is read the same way whatever the texts are.
-/

namespace AheadOfTime.Java

namespace Initializer

variable (initializer : Initializer)

def linesText (lines : List String) : String :=
  String.join (lines.map fun line => line ++ "\n")

theorem linesText_append (first second : List String) :
    linesText (first ++ second) = linesText first ++ linesText second := by
  rw [linesText, List.map_append, String.join_append]
  rfl

/-- What the comment says, with the line feeds and the stars of its lines. -/
def commentText : String :=
  "*" ++ "\n" ++ " * Initializer for \x7b@code " ++ initializer.application.canonical ++
    "\x7d, generated ahead of time." ++ "\n" ++ " "

def statementFragments (statement : Statement) : List Fragment :=
  .code "\t\t" :: (statement.fragments ++ [.code "\n"])

/-- The parts of the source of an initializer. -/
def fragments : List Fragment :=
  .code (linesText initializer.headLines) :: .comment initializer.commentText ::
    .code ("\n" ++ linesText initializer.classLines ++ (initializer.factoryLine ++ "\n")) ::
      (initializer.statements.flatMap statementFragments ++ [.code (linesText closingLines)])

theorem source_statementFragments (statements : List Statement) :
    Fragment.source (statements.flatMap statementFragments) =
      linesText (statements.map fun statement => "\t\t" ++ statement.text) := by
  induction statements with
  | nil =>
      rfl
  | cons statement statements inductionHypothesis =>
      rw [List.flatMap_cons, Fragment.source_append, inductionHypothesis, statementFragments,
        Fragment.source_cons, Fragment.source_append, Statement.source_fragments,
        Fragment.source_cons, Fragment.source_nil, String.append_empty, List.map_cons, linesText,
        linesText, List.map_cons, String.join_cons, String.append_assoc, String.append_assoc,
        String.append_assoc]
      rfl

/-- The fragments of an initializer are its source. -/
theorem source_fragments :
    Fragment.source initializer.fragments = initializer.source.body := by
  have opens : "/**" = "/*" ++ "*" := by decide
  have closes : " */" = " " ++ "*/" := by decide
  have body : initializer.source.body =
      linesText initializer.headLines ++
        (linesText ["/**",
            " * Initializer for \x7b@code " ++ initializer.application.canonical ++
              "\x7d, generated ahead of time.",
            " */"] ++
          (linesText initializer.classLines ++
            (initializer.factoryLine ++ "\n" ++
              (linesText (initializer.statements.map fun statement => "\t\t" ++ statement.text) ++
                linesText closingLines)))) := by
    rw [SourceUnit.body, Code.text, bodyLines_source, openingLines_eq]
    simp only [linesText, List.map_append, List.map_cons, String.join_append, String.join_cons,
      String.append_assoc, List.append_assoc, List.cons_append]
  have comment : linesText ["/**",
        " * Initializer for \x7b@code " ++ initializer.application.canonical ++
          "\x7d, generated ahead of time.",
        " */"] = (Fragment.comment initializer.commentText).text ++ "\n" := by
    rw [opens, closes]
    simp only [linesText, List.map_cons, List.map_nil, String.join_cons, String.join_nil,
      Fragment.text, commentText, String.append_assoc, String.append_empty]
  rw [body, comment, fragments]
  simp only [Fragment.source_cons, Fragment.source_append, source_statementFragments,
    Fragment.source_nil, Fragment.text, String.append_assoc, String.append_empty]

theorem reads_lines {lines : List String} (code : ∀ line ∈ lines, CodeLine line) :
    (Fragment.code (linesText lines)).Sound := by
  refine reads_code fun c member => ?_
  rw [linesText, String.toList_join, List.mem_flatMap] at member
  obtain ⟨text, textMember, inText⟩ := member
  obtain ⟨line, lineMember, rfl⟩ := List.mem_map.1 textMember
  rw [String.toList_append, List.mem_append] at inText
  rcases inText with inLine | feed
  · exact isCode_of_isLineChar (code line lineMember c inLine)
  · have same : c = '\n' := by simpa using feed
    rw [same]
    decide

theorem sound_code_append {first second : String} (firstSound : (Fragment.code first).Sound)
    (secondSound : (Fragment.code second).Sound) : (Fragment.code (first ++ second)).Sound := by
  have reads := Reads.append firstSound secondSound
  rw [← codeElements_append, ← String.toList_append] at reads
  exact reads

/-- The comment around a line ends only at its end. -/
theorem sound_commentLines {text : String} (line : CodeLine text) :
    (Fragment.comment ("*\n * " ++ text ++ "\n ")).Sound := by
  have absent : ∀ c : Char, isLineChar c = false → c ∉ "*\n * ".toList →
      c ∉ "\n ".toList → c ∉ ("*\n * " ++ text ++ "\n ").toList := by
    intro c notLine notBefore notAfter member
    rw [String.toList_append, String.toList_append, List.mem_append, List.mem_append] at member
    rcases member with (before | inside) | after
    · exact notBefore before
    · rw [line c inside] at notLine
      cases notLine
    · exact notAfter after
  exact ⟨absent '/' (by decide) (by decide) (by decide),
    absent '\\' (by decide) (by decide) (by decide)⟩

theorem codeLine_comment :
    CodeLine ("Initializer for \x7b@code " ++ initializer.application.canonical ++
      "\x7d, generated ahead of time.") := by
  simp only [CodeLine.append_iff]
  exact ⟨⟨by decide, .of_plain (.dotted initializer.application.segments)⟩, by decide⟩

theorem sound_comment : (Fragment.comment initializer.commentText).Sound := by
  have parts : initializer.commentText =
      "*\n * " ++ ("Initializer for \x7b@code " ++ initializer.application.canonical ++
        "\x7d, generated ahead of time.") ++ "\n " := by
    apply String.toList_injective
    simp [commentText]
  rw [parts]
  exact sound_commentLines initializer.codeLine_comment

variable {initializer}

theorem sound_fragments
    (plain : ∀ statement ∈ initializer.statements, statement.PlainNames) :
    ∀ fragment ∈ initializer.fragments, fragment.Sound := by
  have statements : ∀ fragment ∈ initializer.statements.flatMap statementFragments,
      fragment.Sound := by
    intro fragment member
    obtain ⟨statement, statementMember, inStatement⟩ := List.mem_flatMap.1 member
    have sound : ∀ part ∈ statementFragments statement, part.Sound := by
      refine List.forall_mem_cons.2
        ⟨reads_code (List.all_eq_true.1 (by decide)), List.forall_mem_append.2 ⟨?_, ?_⟩⟩
      · intro part partMember
        exact (Statement.inLine_fragments (plain statement statementMember) part
          partMember).sound
      · exact List.forall_mem_singleton.2 (reads_code (List.all_eq_true.1 (by decide)))
    exact sound fragment inStatement
  have feed : (Fragment.code "\n").Sound := reads_code (List.all_eq_true.1 (by decide))
  have factory : (Fragment.code (initializer.factoryLine ++ "\n")).Sound := by
    refine sound_code_append (reads_code fun c member => ?_) feed
    exact isCode_of_isPlain (initializer.plain_factoryLine c member)
  have header := sound_code_append
    (sound_code_append feed (reads_lines initializer.codeLine_classLines)) factory
  have head : ∀ line ∈ initializer.headLines, CodeLine line := fun line member =>
    .of_plain (initializer.plain_headLines line member)
  refine List.forall_mem_cons.2 ⟨reads_lines head, ?_⟩
  refine List.forall_mem_cons.2 ⟨initializer.sound_comment, ?_⟩
  refine List.forall_mem_cons.2 ⟨header, List.forall_mem_append.2 ⟨statements, ?_⟩⟩
  exact List.forall_mem_singleton.2 (reads_lines (by decide))

theorem spaced_fragments : Fragment.Spaced initializer.fragments := by
  have statements : Fragment.Spaced (initializer.statements.flatMap statementFragments) := by
    refine Fragment.spaced_flatMap fun statement _ => ?_
    exact (Statement.spaced_fragments statement).append trivial
  exact statements.append trivial

def mapTexts (initializer : Initializer) (change : String → String) : Initializer :=
  { initializer with statements := initializer.statements.map (·.mapTexts change) }

theorem fragments_mapTexts (change : String → String) :
    (initializer.mapTexts change).fragments =
      initializer.fragments.map (Fragment.mapText change) := by
  have statements :
      (initializer.statements.map (·.mapTexts change)).flatMap statementFragments =
        (initializer.statements.flatMap statementFragments).map (Fragment.mapText change) := by
    rw [List.flatMap_map, List.map_flatMap]
    refine List.flatMap_congr fun statement _ => ?_
    rw [statementFragments, statementFragments, Statement.fragments_mapTexts, List.map_cons,
      List.map_append]
    rfl
  rw [fragments, fragments, List.map_cons, List.map_cons, List.map_cons, List.map_append,
    ← statements]
  rfl

/-- Whatever the texts in an initializer are changed to, they are read as such, and its
code is read as before. -/
theorem readSource?_mapTexts
    (plain : ∀ statement ∈ initializer.statements, statement.PlainNames)
    (change : String → String) :
    readSource? (initializer.mapTexts change).source.body.toList =
      some ((initializer.fragments.map (Fragment.mapText change)).flatMap
        Fragment.elements) := by
  rw [← source_fragments, fragments_mapTexts]
  exact Fragment.readSource?_mapText (sound_fragments plain) spaced_fragments change

theorem quoted?_append_code (fragments : List Fragment) (ending : String) :
    (fragments ++ [Fragment.code ending]).filterMap Fragment.quoted? =
      fragments.filterMap Fragment.quoted? := by
  rw [List.filterMap_append]
  exact List.append_nil _

/-- The text literals of an initializer are those of its statements, in order. -/
theorem quoted?_fragments :
    initializer.fragments.filterMap Fragment.quoted? =
      initializer.statements.flatMap Statement.texts := by
  have statement : ∀ statement : Statement,
      (statementFragments statement).filterMap Fragment.quoted? = statement.texts :=
    fun statement => quoted?_append_code statement.fragments "\n"
  have statements : (initializer.statements.flatMap statementFragments).filterMap
      Fragment.quoted? = initializer.statements.flatMap Statement.texts := by
    rw [List.filterMap_flatMap]
    exact List.flatMap_congr fun item _ => statement item
  rw [← statements]
  exact quoted?_append_code (initializer.statements.flatMap statementFragments) _

end Initializer

end AheadOfTime.Java
