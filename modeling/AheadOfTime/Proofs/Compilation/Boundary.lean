import AheadOfTime.Proofs.Compilation.Accounts

/-!
# Output after other output

Reading starts anew at a header and at a count.  So output that begins with one of them is read
after other output as it is read alone, whatever was expected next, and adds to what has been
read without changing it.
-/

namespace AheadOfTime

namespace Text

open CompilerOutput (withoutReturn)

theorem lines_append_feed (text : List Char) :
    lines (text ++ ['\n']) = (split '\n' text).map withoutReturn := by
  rw [lines, split_append_separator, split, List.reverse_append]
  simp only [List.reverse_singleton, List.singleton_append, List.reverse_reverse,
    List.isEmpty_nil, if_true]
  rfl

/-- The lines of two texts follow one another if the first text ends its last line. -/
theorem lines_append {first : List Char} (closed : first = [] ∨ first.getLast? = some '\n')
    (second : List Char) : lines (first ++ second) = lines first ++ lines second := by
  rcases closed with empty | ends
  · rw [empty]
    rfl
  · obtain ⟨text, rfl⟩ := List.getLast?_eq_some_iff.1 ends
    have nonempty : (split '\n' second).reverse ≠ [] := by
      rw [Ne, List.reverse_eq_nil_iff]
      exact split_ne_nil '\n' second
    obtain ⟨last, ended, parts⟩ := List.exists_cons_of_ne_nil nonempty
    rw [lines_append_feed, List.append_assoc, List.singleton_append, lines, lines,
      split_append_separator, List.reverse_append, parts, List.cons_append]
    simp only [List.reverse_append, List.reverse_reverse, List.map_append]
    split
    · rfl
    · rw [List.append_assoc]
      rfl

end Text

namespace CompilerOutput

namespace Reading

/-- What has been read when what `rest` has read comes after what `base` has read. -/
def after (base rest : Reading) : Reading :=
  ⟨base.diagnostics ++ rest.finished, rest.current, base.unparsed ++ rest.unparsed⟩

variable (base rest : Reading)

theorem diagnostics_after :
    (base.after rest).diagnostics = base.diagnostics ++ rest.diagnostics := by
  rw [diagnostics, after, List.append_assoc]
  rfl

theorem finish_after : (base.after rest).finish = base.after rest.finish := by
  rw [finish, diagnostics_after]
  rfl

theorem setAside_after (line : List Char) :
    (base.after rest).setAside line = base.after (rest.setAside line) := by
  rw [setAside, setAside, finish_after]
  simp only [after, finish, List.append_assoc]

theorem takeDetail_after (diagnostic : Diagnostic) (line : List Char) :
    (base.after rest).takeDetail diagnostic line =
      base.after (rest.takeDetail diagnostic line) := by
  rw [takeDetail, takeDetail, setAside_after]
  split
  · rfl
  · rfl

theorem takePlain_after (line : List Char) :
    (base.after rest).takePlain line = base.after (rest.takePlain line) := by
  have current : (base.after rest).current = rest.current := rfl
  rw [takePlain, takePlain, current]
  split
  · exact setAside_after base rest line
  · rfl
  · split
    · rfl
    · exact takeDetail_after base rest _ line
  · exact takeDetail_after base rest _ line

/-- A line is read after other output as it is read alone. -/
theorem take_after (line : List Char) :
    (base.after rest).take line = base.after (rest.take line) := by
  rw [take, take]
  cases Line.of line with
  | blank =>
      rfl
  | header diagnostic next =>
      rw [finish_after]
      rfl
  | summary =>
      exact finish_after base rest
  | plain =>
      exact takePlain_after base rest line

theorem foldl_take_after (lines : List (List Char)) :
    lines.foldl take (base.after rest) = base.after (lines.foldl take rest) := by
  induction lines generalizing rest with
  | nil =>
      rfl
  | cons line lines inductionHypothesis =>
      rw [List.foldl_cons, List.foldl_cons, take_after]
      exact inductionHypothesis (rest.take line)

end Reading

/-- Whether a line ends the message before it: it is a header, or it counts. -/
def EndsMessage (line : List Char) : Prop :=
  (∃ severity, IsHeader severity line) ∨ IsCount line

/-- A line that ends the message before it is read as the first one, whatever is expected. -/
theorem EndsMessage.take {line : List Char} (ends : EndsMessage line) (reading : Reading) :
    reading.take line = reading.after (Reading.start.take line) := by
  have finished : reading.finish = reading.after .start := by
    rw [Reading.finish, Reading.after]
    simp only [Reading.start, List.append_nil]
  rcases ends with ⟨severity, header⟩ | counts
  · obtain ⟨diagnostic, next, isHeader⟩ : ∃ diagnostic next,
        Line.of line = .header diagnostic next := by
      cases header with
      | located named digits last =>
          rw [List.append_assoc]
          exact ⟨_, _, Line.of_header named digits last⟩
      | general last =>
          exact ⟨_, _, Line.of_general last⟩
    rw [Reading.take_header reading isHeader, Reading.take_header .start isHeader, finished]
    rfl
  · rw [Reading.take, Reading.take, Line.of_count counts]
    exact finished

/-- Output that begins with a header or a count, blank lines apart, is read after other output
that ends its last line as it is read alone: the messages and the lines that are left over are
those of the first followed by those of the second. -/
theorem read_append_of_endsMessage {first second : String}
    (closed : first = "" ∨ first.toList.getLast? = some '\n')
    (boundary : ∀ line ∈ (visibleLines second).head?, EndsMessage line) :
    (read (first ++ second)).diagnostics = (read first).diagnostics ++ (read second).diagnostics ∧
      (read (first ++ second)).unparsed = (read first).unparsed ++ (read second).unparsed := by
  have closedLines : first.toList = [] ∨ first.toList.getLast? = some '\n' := by
    refine closed.imp_left ?_
    rintro rfl
    rfl
  have visible : ∀ reading : Reading,
      (Text.lines second.toList).foldl Reading.take reading =
        (visibleLines second).foldl Reading.take reading := fun reading =>
    (reading.foldl_take_visible _).symm
  have both : read (first ++ second) = (visibleLines second).foldl Reading.take (read first) := by
    rw [read, String.toList_append, Text.lines_append closedLines, List.foldl_append, visible]
    rfl
  have alone : read second = (visibleLines second).foldl Reading.take .start := visible .start
  cases lines : visibleLines second with
  | nil =>
      rw [lines] at both alone
      rw [both, alone]
      exact ⟨(List.append_nil _).symm, (List.append_nil _).symm⟩
  | cons line others =>
      rw [lines] at both alone boundary
      have ends : EndsMessage line := boundary line rfl
      have joined : read (first ++ second) = (read first).after (read second) := by
        rw [both, alone, List.foldl_cons, List.foldl_cons, ends.take (read first),
          Reading.foldl_take_after]
      rw [joined]
      exact ⟨Reading.diagnostics_after _ _, rfl⟩

/-- A caret and details after a count are left over, though an echo has come before it. -/
theorem read_echo_before_count :
    (read ("/src/A.java:3: error: lost\n\tm();\n" ++ "1 error\n\t^\n  symbol: m\n")).diagnostics =
        [⟨.error, "lost", some ⟨"/src/A.java"⟩, some 3, none⟩] ∧
      (read ("/src/A.java:3: error: lost\n\tm();\n" ++ "1 error\n\t^\n  symbol: m\n")).unparsed =
        ["\t^", "  symbol: m"] := by
  have first : read "/src/A.java:3: error: lost\n\tm();\n" =
      ⟨[], some (⟨.error, "lost", some ⟨"/src/A.java"⟩, some 3, none⟩, .caret), []⟩ := by
    decide +kernel
  have second : read "1 error\n\t^\n  symbol: m\n" = ⟨[], none, ["\t^", "  symbol: m"]⟩ := by
    decide +kernel
  have boundary : ∀ line ∈ (visibleLines "1 error\n\t^\n  symbol: m\n").head?,
      EndsMessage line := by
    have head : (visibleLines "1 error\n\t^\n  symbol: m\n").head? = some "1 error".toList := by
      decide +kernel
    rw [head]
    rintro _ ⟨⟩
    exact .inr (isSummary_eq_true_iff.1 (by decide +kernel))
  have closed : "/src/A.java:3: error: lost\n\tm();\n" = "" ∨
      "/src/A.java:3: error: lost\n\tm();\n".toList.getLast? = some '\n' := .inr (by decide)
  have read := read_append_of_endsMessage closed boundary
  rw [first, second] at read
  exact read

end CompilerOutput

end AheadOfTime
