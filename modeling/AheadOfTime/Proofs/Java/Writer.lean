import AheadOfTime.Proofs.Java.Fragments.Initializer

/-!
# Writing source code line by line

A writer keeps the text written so far and how many blocks are open.  Writing code leaves
as many blocks open as before, and closes none that is not open.  The braces of what has
been written are as deep as the writer, as long as each step is sound by itself.
-/

namespace AheadOfTime.Java

/-- What a writer is told to do. -/
inductive WriterStep where
  | line (text : String)
  | blank
  | opening (header : String)
  | closing

/-- A source file that is being written. -/
structure Writer where
  buffer : String
  depth : Nat

namespace Writer

def start : Writer :=
  ⟨"", 0⟩

/-- Go on with a line, behind tabs unless it is empty. -/
def write (writer : Writer) (text : String) : Writer :=
  let line := if text.isEmpty then "" else Code.indented writer.depth text
  { writer with buffer := writer.buffer ++ (line ++ "\n") }

/-- Take a step. The depth stays zero when a block is closed and none is open. -/
def step (writer : Writer) : WriterStep → Writer
  | .line text => writer.write text
  | .blank => writer.write ""
  | .opening header => ⟨(writer.write (header ++ " \x7b")).buffer, writer.depth + 1⟩
  | .closing => write ⟨writer.buffer, writer.depth - 1⟩ "\x7d"

/-- Take a step, unless it closes a block and none is open. -/
def step? (writer : Writer) (step : WriterStep) : Option Writer :=
  match step, writer.depth with
  | .closing, 0 => none
  | _, _ => some (writer.step step)

def run? (writer : Writer) : List WriterStep → Option Writer
  | [] => some writer
  | step :: rest => (writer.step? step).bind fun next => next.run? rest

theorem run?_append (writer : Writer) (first second : List WriterStep) :
    writer.run? (first ++ second) =
      (writer.run? first).bind fun between => between.run? second := by
  induction first generalizing writer with
  | nil =>
      rfl
  | cons step rest inductionHypothesis =>
      rw [List.cons_append, run?, run?, Option.bind_assoc]
      exact congrArg _ (funext inductionHypothesis)

theorem write_eq (writer : Writer) {text : String} (nonempty : text ≠ "") :
    writer.write text =
      ⟨writer.buffer ++ (Code.indented writer.depth text ++ "\n"), writer.depth⟩ := by
  rw [write, if_neg (mt String.isEmpty_iff.1 nonempty)]

end Writer

namespace Code

mutual

def steps : Code → List WriterStep
  | line text => [.line text]
  | blank => [.blank]
  | block header body => .opening header :: bodySteps body ++ [.closing]

def bodySteps : List Code → List WriterStep
  | [] => []
  | code :: rest => steps code ++ bodySteps rest

end

theorem bodySteps_append (first second : List Code) :
    bodySteps (first ++ second) = bodySteps first ++ bodySteps second := by
  induction first with
  | nil =>
      rfl
  | cons code first inductionHypothesis =>
      rw [List.cons_append, bodySteps, inductionHypothesis, bodySteps, List.append_assoc]

open Initializer (linesText)

mutual

/-- Code is written line by line, and leaves a writer as deep as it was. -/
theorem run?_steps (code : Code) (named : .line "" ∉ steps code) (buffer : String)
    (depth : Nat) :
    Writer.run? ⟨buffer, depth⟩ (steps code) =
      some ⟨buffer ++ linesText (lines depth code), depth⟩ := by
  cases code with
  | line text =>
      have nonempty : text ≠ "" := by
        rintro rfl
        exact named List.mem_cons_self
      have wrote := Writer.write_eq ⟨buffer, depth⟩ nonempty
      refine congrArg some (wrote.trans ?_)
      simp [linesText, lines]
  | blank =>
      rfl
  | block header body =>
      have bodyNamed : .line "" ∉ bodySteps body := fun member =>
        named (List.mem_cons_of_mem _ (List.mem_append_left _ member))
      have nonempty : header ++ " \x7b" ≠ "" := by
        simp
      have opened : Writer.step? ⟨buffer, depth⟩ (.opening header) =
          some ⟨buffer ++ (indented depth (header ++ " \x7b") ++ "\n"), depth + 1⟩ := by
        have wrote := Writer.write_eq ⟨buffer, depth⟩ nonempty
        exact congrArg (fun writer => some (Writer.mk writer.buffer (depth + 1))) wrote
      have closed : ∀ inside : String, Writer.run? ⟨inside, depth + 1⟩ [.closing] =
          some ⟨inside ++ (indented depth "\x7d" ++ "\n"), depth⟩ := by
        intro inside
        exact congrArg some (Writer.write_eq ⟨inside, depth⟩ (by decide))
      rw [steps, List.cons_append, Writer.run?, opened, Option.bind_some, Writer.run?_append,
        run?_bodySteps body bodyNamed, Option.bind_some, closed, lines]
      simp [linesText, String.append_assoc]

/-- Several pieces of code are written one after another. -/
theorem run?_bodySteps (code : List Code) (named : .line "" ∉ bodySteps code)
    (buffer : String) (depth : Nat) :
    Writer.run? ⟨buffer, depth⟩ (bodySteps code) =
      some ⟨buffer ++ linesText (bodyLines depth code), depth⟩ := by
  cases code with
  | nil =>
      simp [bodySteps, bodyLines, linesText, Writer.run?]
  | cons code rest =>
      rw [bodySteps, List.mem_append, not_or] at named
      rw [bodySteps, Writer.run?_append, run?_steps code named.1, Option.bind_some,
        run?_bodySteps rest named.2, bodyLines]
      simp [linesText, String.append_assoc]

end

end Code

theorem Braces.code {text : String} {before after : Nat}
    (code : ∀ c ∈ text.toList, isCode c = true)
    (shifts : Shifts (codeElements text.toList) before after) : Braces text before after :=
  ⟨_, reads_code code, shifts⟩

/-- Whether a step can be read by itself, and opens and closes the braces that it should. -/
def WriterStep.Sound : WriterStep → Prop
  | .line text => text ≠ "" ∧ Braces text 0 0
  | .opening header => Braces header 0 0
  | .blank | .closing => True

namespace Writer

/-- Whether what is written can be read, with as many braces open as there are blocks. -/
def Tracks (writer : Writer) : Prop :=
  Braces writer.buffer 0 writer.depth

theorem tracks_start : start.Tracks :=
  .plain (by decide)

theorem braces_indented {text : String} {before after : Nat} (braces : Braces text before after)
    (depth : Nat) : Braces (Code.indented depth text ++ "\n") before after := by
  have tabs : Braces (String.ofList (List.replicate depth '\t')) 0 0 := by
    refine .plain (.ofList fun c member => ?_)
    rw [List.eq_of_mem_replicate member]
    decide
  have feed : Braces "\n" 0 0 := .code (List.all_eq_true.1 (by decide)) fun _ => rfl
  exact ((tabs.deepen before).append braces).append (feed.deepen after)

variable {writer next : Writer}

theorem Tracks.write (tracks : writer.Tracks) {text : String} (braces : Braces text 0 0) :
    (writer.write text).Tracks := by
  have wrote : Braces ((if text.isEmpty then "" else Code.indented writer.depth text) ++ "\n")
      0 0 := by
    split
    · exact .code (List.all_eq_true.1 (by decide)) fun _ => rfl
    · exact braces_indented braces writer.depth
  exact Braces.append tracks (wrote.deepen writer.depth)

theorem Tracks.step (tracks : writer.Tracks) {step : WriterStep} (sound : step.Sound)
    (taken : writer.step? step = some next) : next.Tracks := by
  cases step with
  | line text =>
      obtain rfl := Option.some.inj taken
      exact tracks.write sound.2
  | blank =>
      obtain rfl := Option.some.inj taken
      exact tracks.write (.plain (by decide))
  | opening header =>
      obtain rfl := Option.some.inj taken
      have opens : Braces " \x7b" 0 1 := .code (List.all_eq_true.1 (by decide)) fun _ => rfl
      have nonempty : header ++ " \x7b" ≠ "" := by
        simp
      have wrote := braces_indented (Braces.append sound opens) writer.depth
      rw [Writer.step, writer.write_eq nonempty]
      exact Braces.append tracks (wrote.deepen writer.depth)
  | closing =>
      obtain ⟨buffer, depth⟩ := writer
      cases depth with
      | zero =>
          cases taken
      | succ depth =>
          obtain rfl := Option.some.inj taken
          have closes : Braces "\x7d" 1 0 := .code (List.all_eq_true.1 (by decide)) fun _ => rfl
          have wrote := (braces_indented closes depth).deepen depth
          exact Braces.append tracks wrote

theorem Tracks.run (tracks : writer.Tracks) {steps : List WriterStep}
    (sound : ∀ step ∈ steps, step.Sound) (taken : writer.run? steps = some next) :
    next.Tracks := by
  induction steps generalizing writer with
  | nil =>
      obtain rfl := Option.some.inj taken
      exact tracks
  | cons step rest inductionHypothesis =>
      obtain ⟨soundHere, soundLater⟩ := List.forall_mem_cons.1 sound
      obtain ⟨between, takenHere, takenLater⟩ := Option.bind_eq_some_iff.1 taken
      exact inductionHypothesis (tracks.step soundHere takenHere) soundLater takenLater

end Writer

namespace Code

def Sound (code : List Code) : Prop :=
  ∀ step ∈ bodySteps code, step.Sound

theorem sound_nil : Sound [] :=
  List.forall_mem_nil _

theorem sound_cons {code : Code} {rest : List Code} (first : ∀ step ∈ steps code, step.Sound)
    (others : Sound rest) : Sound (code :: rest) :=
  List.forall_mem_append.2 ⟨first, others⟩

theorem Sound.append {first second : List Code} (firstSound : Sound first)
    (secondSound : Sound second) : Sound (first ++ second) := by
  rw [Sound, bodySteps_append]
  exact List.forall_mem_append.2 ⟨firstSound, secondSound⟩

theorem Sound.onlyIf {code : List Code} (sound : Sound code) (used : Bool) :
    Sound (if used then code else []) := by
  cases used with
  | true =>
      exact sound
  | false =>
      exact sound_nil

theorem sound_blank {rest : List Code} (others : Sound rest) : Sound (.blank :: rest) :=
  sound_cons (List.forall_mem_singleton.2 trivial) others

theorem sound_line {text : String} {rest : List Code} (nonempty : text ≠ "")
    (braces : Braces text 0 0) (others : Sound rest) : Sound (.line text :: rest) :=
  sound_cons (List.forall_mem_singleton.2 ⟨nonempty, braces⟩) others

theorem sound_lines {α : Type} {items : List α} {text : α → String}
    (each : ∀ item ∈ items, text item ≠ "" ∧ Braces (text item) 0 0) :
    Sound (items.map fun item => .line (text item)) := by
  induction items with
  | nil =>
      exact sound_nil
  | cons item items inductionHypothesis =>
      obtain ⟨⟨nonempty, braces⟩, others⟩ := List.forall_mem_cons.1 each
      exact sound_line nonempty braces (inductionHypothesis others)

theorem sound_block {header : String} {body rest : List Code} (braces : Braces header 0 0)
    (inside : Sound body) (others : Sound rest) : Sound (.block header body :: rest) := by
  refine sound_cons (List.forall_mem_cons.2 ⟨braces, ?_⟩) others
  exact List.forall_mem_append.2 ⟨inside, List.forall_mem_singleton.2 trivial⟩

/-- Sound code can be read, and closes all blocks that it opens. -/
theorem Sound.braces {code : List Code} (sound : Sound code) :
    Braces (Initializer.linesText (bodyLines 0 code)) 0 0 := by
  have named : .line "" ∉ bodySteps code := fun member => (sound _ member).1 rfl
  have tracks := Writer.tracks_start.run sound (run?_bodySteps code named "" 0)
  rwa [String.empty_append] at tracks

end Code

theorem Fragment.braces_source {fragments : List Fragment}
    (sound : ∀ fragment ∈ fragments, fragment.Sound) (spaced : Spaced fragments)
    (balanced : ∀ fragment ∈ fragments, Shifts fragment.elements 0 0) :
    Braces (source fragments) 0 0 :=
  ⟨_, reads_source sound spaced, .flatMap balanced⟩

theorem Fragment.braces_of_inLine {fragments : List Fragment}
    (inLine : ∀ fragment ∈ fragments, fragment.InLine) (spaced : Spaced fragments) :
    Braces (source fragments) 0 0 :=
  braces_source (fun fragment member => (inLine fragment member).sound) spaced
    fun fragment member => (inLine fragment member).balanced

theorem Statement.braces_text {statement : Statement} (plain : statement.PlainNames) :
    Braces statement.text 0 0 := by
  rw [← source_fragments]
  exact Fragment.braces_of_inLine (inLine_fragments plain) statement.spaced_fragments

/-- A comment is read as a whole. -/
theorem braces_commentCode {comment : String} (line : CodeLine comment) :
    Braces (Initializer.linesText (Code.bodyLines 0 (commentCode comment))) 0 0 := by
  have front : "/**" ++ "\n" ++ " * " = "/*" ++ "*\n * " := by decide
  have back : "\n" ++ " */" ++ "\n" = "\n " ++ "*/" ++ "\n" := by decide
  have written : Initializer.linesText (Code.bodyLines 0 (commentCode comment)) =
      "/**" ++ "\n" ++ " * " ++ comment ++ ("\n" ++ " */" ++ "\n") := by
    simp only [Initializer.linesText, commentCode, Code.bodyLines, Code.lines,
      Code.indented_zero, List.append_nil, List.cons_append, List.nil_append, List.map_cons,
      List.map_nil, String.join_cons, String.join_nil, String.append_assoc,
      String.append_empty]
  have parts : Initializer.linesText (Code.bodyLines 0 (commentCode comment)) =
      Fragment.source [.comment ("*\n * " ++ comment ++ "\n "), .code "\n"] := by
    rw [written, front, back]
    simp only [Fragment.source_cons, Fragment.source_nil, Fragment.text, String.append_assoc,
      String.append_empty]
  rw [parts]
  refine Fragment.braces_source ?_ trivial ?_
  · refine List.forall_mem_cons.2 ⟨Initializer.sound_commentLines line, ?_⟩
    exact List.forall_mem_singleton.2 (reads_code (List.all_eq_true.1 (by decide)))
  · exact List.forall_mem_cons.2 ⟨fun _ => rfl, List.forall_mem_singleton.2 fun _ => rfl⟩

/-- Whether a writer that closes no block that is not open writes a source file and is in no
block in the end, and the braces of the file are balanced. -/
structure SourceUnit.WellWritten (unit : SourceUnit) : Prop where
  written : Writer.start.run? (Code.bodySteps unit.code) = some ⟨unit.body, 0⟩
  balanced : BalancedBraces unit.body.toList

theorem SourceUnit.wellWritten {unit : SourceUnit} {front : List Code} {comment : String}
    {declaration : Code}
    (parts : unit.code = front ++ .blank :: commentCode comment ++ [declaration])
    (soundFront : Code.Sound front) (line : CodeLine comment)
    (soundDeclaration : Code.Sound [declaration]) : unit.WellWritten := by
  have whole : unit.code = (front ++ [.blank]) ++ (commentCode comment ++ [declaration]) := by
    rw [parts]
    simp
  have soundHead : Code.Sound (front ++ [.blank]) :=
    soundFront.append (Code.sound_blank Code.sound_nil)
  constructor
  · have named : .line "" ∉ Code.bodySteps unit.code := by
      rw [whole, Code.bodySteps_append, Code.bodySteps_append (commentCode comment),
        List.mem_append, List.mem_append]
      rintro (inHead | inComment | inClass)
      · exact (soundHead _ inHead).1 rfl
      · simp [commentCode, Code.bodySteps, Code.steps] at inComment
      · exact (soundDeclaration _ inClass).1 rfl
    have written := Code.run?_bodySteps unit.code named "" 0
    rwa [String.empty_append] at written
  · have body : unit.body =
        Initializer.linesText (Code.bodyLines 0 (front ++ [.blank])) ++
          (Initializer.linesText (Code.bodyLines 0 (commentCode comment)) ++
            Initializer.linesText (Code.bodyLines 0 [declaration])) := by
      rw [← Initializer.linesText_append, ← Initializer.linesText_append,
        ← Code.bodyLines_append, ← Code.bodyLines_append, ← whole]
      rfl
    rw [body]
    exact (soundHead.braces.append
      ((braces_commentCode line).append soundDeclaration.braces)).balanced

end AheadOfTime.Java
