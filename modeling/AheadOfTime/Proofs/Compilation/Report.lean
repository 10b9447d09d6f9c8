import AheadOfTime.Proofs.Compilation.Lines

/-!
# Reading a report back

A report is blocks of lines, with blank lines anywhere among them.  Reading it gives one
diagnostic for each block that is about something, in order, and leaves no line over.
-/

namespace AheadOfTime.CompilerOutput

/-- A block of a report: a message about a source file, with the echo of the line of
source, the blanks around the caret and the lines with details; a message about no file;
or a line that counts. -/
inductive Block where
  | located (stem : List Char) (tail : HeaderTail) (echo : Option (List Char))
      (caret : Option (List Char × List Char)) (details : List (List Char))
  | general (severity : Severity) (message : List Char) (details : List (List Char))
  | count (line : List Char)

/-- A line with details: it begins with a blank, and is neither blank nor a header nor a
line that counts. -/
structure IsDetail (line : List Char) : Prop where
  indented : ∃ blank rest, Unicode.isBlank blank = true ∧ line = blank :: rest
  visible : Text.isBlank line = false
  unmatched : IsUnmatched line

/-- The parts of a message about a source file as a compiler writes them. -/
structure IsLocatedBlock (stem : List Char) (tail : HeaderTail) (echo : Option (List Char))
    (caret : Option (List Char × List Char)) (details : List (List Char)) : Prop where
  named : stem ≠ []
  nonempty : tail.digits ≠ []
  ascii : ∀ c ∈ tail.digits, c.isDigit = true
  limited : decimalValue tail.digits < positionLimit
  last : ¬ HoldsPosition tail.message
  echoed : ∀ line ∈ echo, Text.isBlank line = false ∧ IsUnmatched line
  marked : ∀ blanks ∈ caret, Text.isBlank blanks.1 = true ∧ Text.isBlank blanks.2 = true
  detailed : ∀ line ∈ details, IsDetail line
  alone : echo = none → details = []
  unmarked : caret = none → ∀ line ∈ details.head?, ¬ IsCaret line

namespace Block

def caretLine (blanks : List Char × List Char) : List Char :=
  blanks.1 ++ '^' :: blanks.2

def lines : Block → List (List Char)
  | located stem tail echo caret details =>
      (stem ++ (sourceEnd ++ tail.text)) ::
        (echo.toList ++ ((caret.map caretLine).toList ++ details))
  | general severity message details => (generalMark severity ++ message) :: details
  | count line => [line]

/-- Whether a block is as a compiler writes it. -/
def Written : Block → Prop
  | located stem tail echo caret details => IsLocatedBlock stem tail echo caret details
  | general _ message details => ¬ HoldsPosition message ∧ ∀ line ∈ details, IsDetail line
  | count line => IsCount line

/-- The column behind the blanks before a caret: a tab leads to the next tab stop. -/
def columnBehind? (blanks : List Char) : Option Nat :=
  let column := blanks.foldl advance 0 + 1
  if column < positionLimit then some column else none

def messageText (message : List Char) (details : List (List Char)) : String :=
  String.ofList message ++
    String.join (details.map fun line => "\n" ++ String.ofList (Text.trim line))

/-- What a block says. A caret without an echo above it is read as the echo, so it marks
no column. -/
def diagnostic? : Block → Option Diagnostic
  | located stem tail echo caret details =>
      some ⟨tail.severity, messageText tail.message details,
        some ⟨String.ofList (stem ++ sourceEnd)⟩, some (decimalValue tail.digits),
        if echo.isSome then caret.bind fun blanks => columnBehind? blanks.1 else none⟩
  | general severity message details =>
      some ⟨severity, messageText message details, none, none, none⟩
  | count _ => none

end Block

def withoutReturn (line : List Char) : List Char :=
  if line.getLast? = some '\r' then line.dropLast else line

theorem split_flatMap_feed {lines : List (List Char)} (noFeed : ∀ line ∈ lines, '\n' ∉ line) :
    Text.split '\n' (lines.flatMap (· ++ ['\n'])) = lines ++ [[]] := by
  induction lines with
  | nil =>
      rfl
  | cons line lines inductionHypothesis =>
      obtain ⟨here, later⟩ := List.forall_mem_cons.1 noFeed
      rw [List.flatMap_cons, List.append_assoc, List.singleton_append,
        Text.split_append_cons here, inductionHypothesis later, List.cons_append]

theorem lines_flatMap_feed {lines : List (List Char)} (noFeed : ∀ line ∈ lines, '\n' ∉ line) :
    Text.lines (lines.flatMap (· ++ ['\n'])) = lines.map withoutReturn := by
  rw [Text.lines, split_flatMap_feed noFeed, List.reverse_append]
  simp only [List.reverse_singleton, List.singleton_append, List.reverse_reverse,
    List.isEmpty_nil, if_true]
  rfl

namespace Reading

theorem take_blank (reading : Reading) {line : List Char} (blank : Text.isBlank line = true) :
    reading.take line = reading := by
  rw [take, Line.of_blank blank]

theorem foldl_take_visible (reading : Reading) (lines : List (List Char)) :
    (lines.filter fun line => !Text.isBlank line).foldl take reading =
      lines.foldl take reading := by
  induction lines generalizing reading with
  | nil =>
      rfl
  | cons line lines inductionHypothesis =>
      cases blank : Text.isBlank line with
      | true =>
          rw [List.filter_cons_of_neg (by simp [blank]), List.foldl_cons,
            take_blank reading blank]
          exact inductionHypothesis reading
      | false =>
          rw [List.filter_cons_of_pos (by simp [blank]), List.foldl_cons, List.foldl_cons]
          exact inductionHypothesis _

theorem take_header (reading : Reading) {line : List Char} {diagnostic : Diagnostic}
    {next : Part} (isHeader : Line.of line = .header diagnostic next) :
    reading.take line = reading.finish.goOn diagnostic next := by
  rw [take, isHeader]

theorem take_plain (reading : Reading) {line : List Char}
    (visible : Text.isBlank line = false) (unmatched : IsUnmatched line) :
    reading.take line = reading.takePlain line := by
  rw [take, Line.of_unmatched visible unmatched]

theorem goOn_goOn (reading : Reading) (first second : Diagnostic) (part next : Part) :
    (reading.goOn first part).goOn second next = reading.goOn second next :=
  rfl

theorem takeDetail_goOn (reading : Reading) (diagnostic : Diagnostic) (part : Part)
    {line : List Char} (detail : IsDetail line) :
    (reading.goOn diagnostic part).takeDetail diagnostic line =
      reading.goOn (addDetail diagnostic line) .detail := by
  obtain ⟨blank, rest, isBlank, parts⟩ := detail.indented
  have begins : (line.head?.map Unicode.isBlank).getD false = true := by
    rw [parts]
    exact isBlank
  rw [takeDetail, if_pos begins, goOn_goOn]

theorem foldl_details (reading : Reading) (diagnostic : Diagnostic) {details : List (List Char)}
    (detailed : ∀ line ∈ details, IsDetail line) :
    details.foldl take (reading.goOn diagnostic .detail) =
      reading.goOn (details.foldl addDetail diagnostic) .detail := by
  induction details generalizing diagnostic with
  | nil =>
      rfl
  | cons line details inductionHypothesis =>
      obtain ⟨here, later⟩ := List.forall_mem_cons.1 detailed
      rw [List.foldl_cons, List.foldl_cons, take_plain _ here.visible here.unmatched]
      change details.foldl take ((reading.goOn diagnostic .detail).takeDetail diagnostic line) = _
      rw [takeDetail_goOn reading diagnostic .detail here]
      exact inductionHypothesis _ later

/-- Details may come where a caret may, when the first of them is no caret. -/
theorem foldl_details_of_caret (reading : Reading) (diagnostic : Diagnostic)
    {details : List (List Char)} (detailed : ∀ line ∈ details, IsDetail line)
    (unmarked : ∀ line ∈ details.head?, ¬ IsCaret line) :
    ∃ next, details.foldl take (reading.goOn diagnostic .caret) =
      reading.goOn (details.foldl addDetail diagnostic) next := by
  cases details with
  | nil =>
      exact ⟨.caret, rfl⟩
  | cons line details =>
      obtain ⟨here, later⟩ := List.forall_mem_cons.1 detailed
      have noCaret : ¬ Text.trim line = ['^'] :=
        fun trimmed => unmarked line rfl (trim_eq_caret_iff.1 trimmed)
      have taken : (reading.goOn diagnostic .caret).takePlain line =
          (reading.goOn diagnostic .caret).takeDetail diagnostic line :=
        if_neg noCaret
      refine ⟨.detail, ?_⟩
      rw [List.foldl_cons, List.foldl_cons, take_plain _ here.visible here.unmatched, taken,
        takeDetail_goOn reading diagnostic .caret here]
      exact foldl_details reading _ later

end Reading

/-! ## Blocks one after another -/

theorem foldl_addDetail (diagnostic : Diagnostic) (details : List (List Char)) :
    details.foldl addDetail diagnostic =
      { diagnostic with
        message := diagnostic.message ++
          String.join (details.map fun line => "\n" ++ String.ofList (Text.trim line)) } := by
  induction details generalizing diagnostic with
  | nil =>
      rw [List.foldl_nil, List.map_nil, String.join_nil, String.append_empty]
  | cons line details inductionHypothesis =>
      rw [List.foldl_cons, inductionHypothesis, List.map_cons, String.join_cons, addDetail,
        String.append_assoc, String.append_assoc]

theorem isDecimalDigit_of_isDigit {c : Char} (digit : c.isDigit = true) :
    Unicode.isDecimalDigit c = true := by
  have ascii : c.val < 0x80 := by
    rw [UInt32.lt_iff_toNat_lt]
    exact Nat.lt_of_le_of_lt (toNat_of_isDigit digit).2 (by decide)
  rw [Unicode.isDecimalDigit, if_pos ascii]
  exact digit

theorem column?_caretLine {blanks : List Char × List Char}
    (blank : Text.isBlank blanks.1 = true) :
    column? (Block.caretLine blanks) = Block.columnBehind? blanks.1 := by
  have noCaret : ∀ c ∈ blanks.1, decide (c ≠ '^') = true := by
    intro c member
    rw [decide_eq_true_eq]
    rintro rfl
    have isBlank := List.all_eq_true.1 blank '^' member
    rw [not_isBlank_caret] at isBlank
    cases isBlank
  have before : (Block.caretLine blanks).takeWhile (· ≠ '^') = blanks.1 := by
    rw [Block.caretLine, List.takeWhile_append_of_pos noCaret,
      List.takeWhile_cons_of_neg (by decide), List.append_nil]
  rw [column?, caretColumn, before]
  rfl

namespace IsLocatedBlock

variable {stem : List Char} {tail : HeaderTail} {echo : Option (List Char)}
  {caret : Option (List Char × List Char)} {details : List (List Char)}

theorem take_header (written : IsLocatedBlock stem tail echo caret details)
    (reading : Reading) :
    reading.take (stem ++ (sourceEnd ++ tail.text)) =
      reading.finish.goOn
        (.located tail.severity (String.ofList tail.message)
          ⟨String.ofList (stem ++ sourceEnd)⟩ (decimalValue tail.digits)) .source := by
  have digits : AreDigits tail.digits :=
    ⟨written.nonempty, fun c member => isDecimalDigit_of_isDigit (written.ascii c member)⟩
  have ascii : tail.digits.all Char.isDigit = true := List.all_eq_true.2 written.ascii
  have number : lineNumber tail.digits = decimalValue tail.digits := by
    rw [lineNumber, ascii, Bool.true_and, decide_eq_true written.limited]
    rfl
  rw [← number]
  exact reading.take_header (Line.of_header written.named digits written.last)

theorem take_caret (written : IsLocatedBlock stem tail echo caret details)
    {blanks : List Char × List Char} (marks : caret = some blanks) (reading : Reading) :
    reading.take (Block.caretLine blanks) = reading.takePlain (Block.caretLine blanks) := by
  obtain ⟨before, after⟩ := written.marked blanks marks
  have isCaret : IsCaret (Block.caretLine blanks) := ⟨_, _, before, after, rfl⟩
  exact reading.take_plain (isBlank_eq_false_of_isCaret isCaret) (isUnmatched_of_isCaret isCaret)

theorem foldl_take_of_no_echo (written : IsLocatedBlock stem tail none caret details)
    (reading : Reading) :
    ∃ diagnostic next,
      (Block.located stem tail none caret details).diagnostic? = some diagnostic ∧
      (Block.located stem tail none caret details).lines.foldl Reading.take reading =
        reading.finish.goOn diagnostic next := by
  have header := written.take_header reading
  have noDetails := written.alone rfl
  subst noDetails
  have message : Block.messageText tail.message [] = String.ofList tail.message := by
    rw [Block.messageText, List.map_nil, String.join_nil, String.append_empty]
  cases caret with
  | none =>
      refine ⟨_, .source, rfl, ?_⟩
      rw [message]
      exact header
  | some blanks =>
      refine ⟨_, .caret, rfl, ?_⟩
      rw [message]
      change (reading.take _).take (Block.caretLine blanks) = _
      rw [header, written.take_caret rfl]
      rfl

theorem foldl_take_of_echo {line : List Char}
    (written : IsLocatedBlock stem tail (some line) caret details) (reading : Reading) :
    ∃ diagnostic next,
      (Block.located stem tail (some line) caret details).diagnostic? = some diagnostic ∧
      (Block.located stem tail (some line) caret details).lines.foldl Reading.take reading =
        reading.finish.goOn diagnostic next := by
  have header := written.take_header reading
  obtain ⟨visible, unmatched⟩ := written.echoed line rfl
  have echoed : ∀ diagnostic,
      (reading.finish.goOn diagnostic .source).take line =
        reading.finish.goOn diagnostic .caret := by
    intro diagnostic
    rw [Reading.take_plain _ visible unmatched]
    rfl
  cases caret with
  | none =>
      have read := Reading.foldl_details_of_caret reading.finish
        (.located tail.severity (String.ofList tail.message)
          ⟨String.ofList (stem ++ sourceEnd)⟩ (decimalValue tail.digits))
        written.detailed (written.unmarked rfl)
      obtain ⟨next, read⟩ := read
      refine ⟨_, next, rfl, ?_⟩
      rw [foldl_addDetail] at read
      change details.foldl Reading.take ((reading.take _).take line) = _
      rw [header, echoed]
      exact read
  | some blanks =>
      have trimmed : Text.trim (Block.caretLine blanks) = ['^'] := by
        obtain ⟨before, after⟩ := written.marked blanks rfl
        exact trim_eq_caret_iff.2 ⟨_, _, before, after, rfl⟩
      have marked : ∀ diagnostic,
          (reading.finish.goOn diagnostic .caret).takePlain (Block.caretLine blanks) =
            reading.finish.goOn
              { diagnostic with column := Block.columnBehind? blanks.1 } .detail := by
        intro diagnostic
        rw [← column?_caretLine (written.marked blanks rfl).1]
        exact if_pos trimmed
      have read := Reading.foldl_details reading.finish
        { Diagnostic.located tail.severity (String.ofList tail.message)
            ⟨String.ofList (stem ++ sourceEnd)⟩ (decimalValue tail.digits) with
          column := Block.columnBehind? blanks.1 }
        written.detailed
      refine ⟨_, .detail, rfl, ?_⟩
      rw [foldl_addDetail] at read
      change details.foldl Reading.take
        (((reading.take _).take line).take (Block.caretLine blanks)) = _
      rw [header, echoed, written.take_caret rfl, marked]
      exact read

/-- A located block is one diagnostic. -/
theorem foldl_take (written : IsLocatedBlock stem tail echo caret details)
    (reading : Reading) :
    ∃ diagnostic next,
      (Block.located stem tail echo caret details).diagnostic? = some diagnostic ∧
      (Block.located stem tail echo caret details).lines.foldl Reading.take reading =
        reading.finish.goOn diagnostic next := by
  cases echo with
  | none =>
      exact written.foldl_take_of_no_echo reading
  | some line =>
      exact written.foldl_take_of_echo reading

end IsLocatedBlock

namespace Block

/-- A block adds what it says to the diagnostics, and leaves no line over. -/
theorem foldl_take {block : Block} (written : block.Written) (reading : Reading) :
    (block.lines.foldl Reading.take reading).diagnostics =
        reading.diagnostics ++ block.diagnostic?.toList ∧
      (block.lines.foldl Reading.take reading).unparsed = reading.unparsed := by
  cases block with
  | located stem tail echo caret details =>
      obtain ⟨diagnostic, next, told, read⟩ := IsLocatedBlock.foldl_take written reading
      rw [read, told]
      exact ⟨rfl, rfl⟩
  | general severity message details =>
      obtain ⟨last, detailed⟩ := written
      have isHeader : Line.of (generalMark severity ++ message) =
          .header (.general severity (String.ofList message)) .detail :=
        Line.of_general last
      have header := reading.take_header isHeader
      have read := Reading.foldl_details reading.finish
        (.general severity (String.ofList message)) detailed
      rw [foldl_addDetail] at read
      change (details.foldl Reading.take (reading.take _)).diagnostics = _ ∧
        (details.foldl Reading.take (reading.take _)).unparsed = _
      rw [header, read]
      exact ⟨rfl, rfl⟩
  | count line =>
      have finished : reading.take line = reading.finish := by
        rw [Reading.take, Line.of_count written]
      change (reading.take line).diagnostics = _ ∧ (reading.take line).unparsed = _
      rw [finished]
      exact ⟨rfl, rfl⟩

theorem foldl_take_all {blocks : List Block} (written : ∀ block ∈ blocks, block.Written)
    (reading : Reading) :
    ((blocks.flatMap lines).foldl Reading.take reading).diagnostics =
        reading.diagnostics ++ blocks.filterMap diagnostic? ∧
      ((blocks.flatMap lines).foldl Reading.take reading).unparsed = reading.unparsed := by
  induction blocks generalizing reading with
  | nil =>
      exact ⟨(List.append_nil _).symm, rfl⟩
  | cons block blocks inductionHypothesis =>
      obtain ⟨here, later⟩ := List.forall_mem_cons.1 written
      obtain ⟨said, kept⟩ := foldl_take here reading
      obtain ⟨saidLater, keptLater⟩ :=
        inductionHypothesis later (block.lines.foldl Reading.take reading)
      rw [List.flatMap_cons, List.foldl_append]
      refine ⟨saidLater.trans ?_, keptLater.trans kept⟩
      rw [said, List.append_assoc]
      cases told : block.diagnostic? with
      | none =>
          rw [List.filterMap_cons_none told]
          rfl
      | some diagnostic =>
          rw [List.filterMap_cons_some told]
          rfl

end Block

/-- A report is read back: the lines of its blocks, in order and with blank lines anywhere,
give one diagnostic for each block that says something, and no line is left over. -/
theorem read_report {lines : List (List Char)} {blocks : List Block}
    (noFeed : ∀ line ∈ lines, '\n' ∉ line)
    (layout : ((lines.map withoutReturn).filter fun line => !Text.isBlank line) =
      blocks.flatMap Block.lines)
    (written : ∀ block ∈ blocks, block.Written) :
    (read (String.ofList (lines.flatMap (· ++ ['\n'])))).diagnostics =
        blocks.filterMap Block.diagnostic? ∧
      (read (String.ofList (lines.flatMap (· ++ ['\n'])))).unparsed = [] := by
  have asBlocks : read (String.ofList (lines.flatMap (· ++ ['\n']))) =
      (blocks.flatMap Block.lines).foldl Reading.take .start := by
    rw [read, String.toList_ofList, lines_flatMap_feed noFeed, ← layout,
      Reading.foldl_take_visible]
  rw [asBlocks]
  exact Block.foldl_take_all written .start

/-- The blocks of a report about a missing symbol: with an echo, a caret and details, then
a note, then the count of the errors. -/
def symbolBlocks : List Block :=
  [.located "/src/A".toList ⟨['3'], .error, "cannot find symbol".toList⟩
      (some "\tMissing m;".toList) (some (['\t'], []))
      ["  symbol:   class Missing".toList],
    .general .note "Some input files use unchecked operations".toList [],
    .count "1 error".toList]

theorem symbolBlocks_written : ∀ block ∈ symbolBlocks, block.Written := by
  have echoed : ∀ line ∈ some "\tMissing m;".toList,
      Text.isBlank line = false ∧ IsUnmatched line := by
    rintro _ ⟨⟩
    exact ⟨by decide +kernel, Line.isUnmatched_of_plain (by decide +kernel)⟩
  have detailed : ∀ line ∈ ["  symbol:   class Missing".toList], IsDetail line := by
    refine List.forall_mem_singleton.2 ⟨⟨' ', _, by decide +kernel, rfl⟩, by decide +kernel, ?_⟩
    exact Line.isUnmatched_of_plain (by decide +kernel)
  have marked : ∀ blanks ∈ some (['\t'], ([] : List Char)),
      Text.isBlank blanks.1 = true ∧ Text.isBlank blanks.2 = true := by
    rintro _ ⟨⟩
    exact ⟨by decide +kernel, rfl⟩
  refine List.forall_mem_cons.2 ⟨?_, List.forall_mem_cons.2 ⟨?_, ?_⟩⟩
  · exact ⟨by decide, by decide, List.forall_mem_singleton.2 (by decide), by decide,
      not_holdsPosition_of_noPoint (by decide), echoed, marked, detailed, by simp, by simp⟩
  · exact ⟨not_holdsPosition_of_noPoint (by decide), List.forall_mem_nil _⟩
  · refine List.forall_mem_singleton.2 ⟨['1'], " error", ⟨by decide, ?_⟩, by decide, rfl⟩
    exact List.forall_mem_singleton.2 (by decide)

theorem read_symbol_report :
    (read (String.ofList
        ((["/src/A.java:3: error: cannot find symbol", "\tMissing m;", "\t^", "",
            "  symbol:   class Missing", "Note: Some input files use unchecked operations",
            "1 error"].map String.toList).flatMap (· ++ ['\n'])))).diagnostics =
      [⟨.error, "cannot find symbol\nsymbol:   class Missing", some ⟨"/src/A.java"⟩, some 3,
          some 9⟩,
        ⟨.note, "Some input files use unchecked operations", none, none, none⟩] := by
  have layout : ((["/src/A.java:3: error: cannot find symbol", "\tMissing m;", "\t^", "",
      "  symbol:   class Missing", "Note: Some input files use unchecked operations",
      "1 error"].map String.toList).map withoutReturn).filter (fun line => !Text.isBlank line) =
        symbolBlocks.flatMap Block.lines := by
    decide +kernel
  have said : symbolBlocks.filterMap Block.diagnostic? =
      [⟨.error, "cannot find symbol\nsymbol:   class Missing", some ⟨"/src/A.java"⟩, some 3,
          some 9⟩,
        ⟨.note, "Some input files use unchecked operations", none, none, none⟩] := by
    decide +kernel
  rw [← said]
  exact (read_report (by decide) layout symbolBlocks_written).1

end AheadOfTime.CompilerOutput
