import AheadOfTime.Proofs.Compilation.Roles

/-!
# Messages and the lines that they come from

A line of some role does one thing to what has been read.  So the messages that are read are
told by the roles of the lines: each header opens one, and the lines after it, as long as they
go on with a message, give it its column and its details.  What belongs to no message is kept
as it is, in order.
-/

namespace AheadOfTime.CompilerOutput

/-- Whether what has been read expects what may come after a line with a role, or after none. -/
def Reading.Expects (reading : Reading) (previous : Option Role) : Prop :=
  reading.current.map Prod.snd = previous.bind Role.next?

/-- What reading a line of some role leaves behind. -/
inductive Taken (reading : Reading) (line : List Char) : Role → Reading → Prop where
  | header {role : Role} {diagnostic : Diagnostic} {next : Part}
      (opens : role.opened? = some diagnostic) (isNext : role.next? = some next) :
      Taken reading line role (reading.finish.goOn diagnostic next)
  | count : Taken reading line .count reading.finish
  | echo {diagnostic : Diagnostic} (current : reading.current = some (diagnostic, .source)) :
      Taken reading line .echo (reading.goOn diagnostic .caret)
  | caret {diagnostic : Diagnostic} (current : reading.current = some (diagnostic, .caret)) :
      Taken reading line .caret
        (reading.goOn { diagnostic with column := column? line } .detail)
  | detail {diagnostic : Diagnostic} {part : Part}
      (current : reading.current = some (diagnostic, part)) :
      Taken reading line .detail (reading.goOn (addDetail diagnostic line) .detail)
  | unparsed : Taken reading line .unparsed (reading.setAside line)

section Line

variable {reading : Reading} {previous : Option Role} {line : List Char}

theorem Reading.takeDetail_of_isIndented (diagnostic : Diagnostic) (indented : IsIndented line) :
    reading.takeDetail diagnostic line = reading.goOn (addDetail diagnostic line) .detail :=
  if_pos (isIndented_iff.2 indented)

theorem Reading.takeDetail_of_not_isIndented (diagnostic : Diagnostic)
    (flush : ¬ IsIndented line) : reading.takeDetail diagnostic line = reading.setAside line :=
  if_neg fun indented => flush (isIndented_iff.1 indented)

theorem Reading.Expects.exists_current {role : Role} (expects : reading.Expects (some role))
    {part : Part} (isNext : role.next? = some part) :
    ∃ diagnostic, reading.current = some (diagnostic, part) := by
  rw [Reading.Expects, Option.bind_some, isNext] at expects
  obtain ⟨⟨diagnostic, found⟩, current, same⟩ := Option.map_eq_some_iff.1 expects
  exact ⟨diagnostic, by rw [current, ← same]⟩

/-- After a header without a place, a caret or details there may be details only. -/
theorem Reading.takePlain_of_detail {diagnostic : Diagnostic}
    (current : reading.current = some (diagnostic, .detail)) :
    reading.takePlain line = reading.takeDetail diagnostic line := by
  rw [takePlain, current]

/-- After an echo there may be a caret or details. -/
theorem Reading.takePlain_of_caret {diagnostic : Diagnostic}
    (current : reading.current = some (diagnostic, .caret)) :
    reading.takePlain line =
      if Text.trim line = ['^'] then
        reading.goOn { diagnostic with column := column? line } .detail
      else
        reading.takeDetail diagnostic line := by
  rw [takePlain, current]

/-- Where details may come, what is read expects a part after which they may come. -/
theorem Reading.takePlain_of_takesDetails {role : Role} (expects : reading.Expects (some role))
    (takes : role.TakesDetails) (unmarked : some role = some .echo → ¬ IsCaret line) :
    ∃ diagnostic part, reading.current = some (diagnostic, part) ∧
      reading.takePlain line = reading.takeDetail diagnostic line := by
  cases role with
  | echo =>
      obtain ⟨diagnostic, current⟩ := expects.exists_current rfl
      refine ⟨diagnostic, .caret, current, (takePlain_of_caret current).trans (if_neg ?_)⟩
      exact fun trimmed => unmarked rfl (trim_eq_caret_iff.1 trimmed)
  | general _ _ | caret | detail =>
      obtain ⟨diagnostic, current⟩ := expects.exists_current rfl
      exact ⟨diagnostic, .detail, current, takePlain_of_detail current⟩
  | located _ _ | count | unparsed =>
      exact takes.elim

/-- Reading does with a visible line what its role says. -/
theorem HasRole.taken {role : Role} (has : HasRole previous line role)
    (visible : Text.isBlank line = false) (expects : reading.Expects previous) :
    Taken reading line role (reading.take line) := by
  cases has with
  | located named digits last =>
      obtain ⟨stem, nonempty, rfl⟩ := named
      rw [List.append_assoc, Reading.take_header _ (Line.of_header nonempty digits last)]
      exact .header rfl rfl
  | general last =>
      rw [Reading.take_header _ (Line.of_general last)]
      exact .header rfl rfl
  | count counts =>
      rw [Reading.take, Line.of_count counts]
      exact .count
  | echo unmatched after =>
      obtain ⟨source, tail, rfl⟩ := after
      obtain ⟨diagnostic, current⟩ := expects.exists_current rfl
      rw [Reading.take_plain _ visible unmatched, Reading.takePlain, current]
      exact .echo current
  | caret isCaret after =>
      rw [after] at expects
      obtain ⟨diagnostic, current⟩ := expects.exists_current rfl
      rw [Reading.take_plain _ visible (isUnmatched_of_isCaret isCaret),
        Reading.takePlain_of_caret current, if_pos (trim_eq_caret_iff.2 isCaret)]
      exact .caret current
  | detail unmatched indented after unmarked =>
      obtain ⟨role, isPrevious, takes⟩ := after
      rw [Option.mem_def.1 isPrevious] at expects unmarked
      obtain ⟨diagnostic, part, current, taken⟩ :=
        Reading.takePlain_of_takesDetails expects takes unmarked
      rw [Reading.take_plain _ visible unmatched, taken,
        Reading.takeDetail_of_isIndented diagnostic indented]
      exact .detail current
  | unparsed unmatched noEcho noCaret noDetail =>
      have aside : reading.takePlain line = reading.setAside line := by
        cases previous with
        | none =>
            rw [Reading.takePlain, Option.map_eq_none_iff.1 expects]
        | some role =>
            by_cases takes : role.TakesDetails
            · obtain ⟨diagnostic, part, -, taken⟩ :=
                Reading.takePlain_of_takesDetails expects takes noCaret
              rw [taken]
              exact Reading.takeDetail_of_not_isIndented diagnostic (noDetail role rfl takes)
            · cases role with
              | located source tail =>
                  exact absurd rfl (noEcho source tail)
              | general _ _ | echo | caret | detail =>
                  exact absurd trivial takes
              | count | unparsed =>
                  rw [Reading.takePlain, Option.map_eq_none_iff.1 expects]
      rw [Reading.take_plain _ visible unmatched, aside]
      exact .unparsed

theorem Taken.expects {role : Role} {after : Reading} (taken : Taken reading line role after) :
    after.Expects (some role) := by
  cases taken with
  | header opens isNext =>
      exact isNext.symm
  | count | echo current | caret current | detail current | unparsed =>
      rfl

end Line

def carets (entries : List (List Char × Role)) : List (List Char) :=
  entries.filterMap fun
    | (line, .caret) => some line
    | _ => none

def details (entries : List (List Char × Role)) : List (List Char) :=
  entries.filterMap fun
    | (line, .detail) => some line
    | _ => none

def unparsedLines (entries : List (List Char × Role)) : List String :=
  entries.filterMap fun
    | (line, .unparsed) => some (String.ofList line)
    | _ => none

/-- The lines that go on with a message before any other line comes. -/
def partsFirst (entries : List (List Char × Role)) : List (List Char × Role) :=
  entries.takeWhile fun entry => entry.2.isPart

/-- A message with what the lines after it add: the column of their caret and their details. -/
def completed (diagnostic : Diagnostic) (parts : List (List Char × Role)) : Diagnostic :=
  { diagnostic with
    message := diagnostic.message ++
      String.join ((details parts).map fun line => "\n" ++ String.ofList (Text.trim line))
    column := ((carets parts).getLast?.map column?).getD diagnostic.column }

/-- The messages that lines tell: one for each header. -/
def told : List (List Char × Role) → List Diagnostic
  | [] => []
  | (_, role) :: entries =>
      (role.opened?.map fun diagnostic => completed diagnostic (partsFirst entries)).toList ++
        told entries

theorem completed_nil (diagnostic : Diagnostic) : completed diagnostic [] = diagnostic := by
  rw [completed, details, carets, List.filterMap_nil, List.filterMap_nil, List.map_nil,
    String.join_nil, String.append_empty]
  rfl

theorem completed_echo (diagnostic : Diagnostic) (line : List Char)
    (parts : List (List Char × Role)) :
    completed diagnostic ((line, .echo) :: parts) = completed diagnostic parts :=
  rfl

theorem completed_caret (diagnostic : Diagnostic) (line : List Char)
    (parts : List (List Char × Role)) :
    completed diagnostic ((line, .caret) :: parts) =
      completed { diagnostic with column := column? line } parts := by
  have others : carets ((line, .caret) :: parts) = line :: carets parts := rfl
  rw [completed, completed, others, List.getLast?_cons]
  cases (carets parts).getLast? <;> rfl

theorem completed_detail (diagnostic : Diagnostic) (line : List Char)
    (parts : List (List Char × Role)) :
    completed diagnostic ((line, .detail) :: parts) =
      completed (addDetail diagnostic line) parts := by
  have others : details ((line, .detail) :: parts) = line :: details parts := rfl
  have message : ∀ later : List (List Char),
      diagnostic.message ++
          String.join ((line :: later).map fun line => "\n" ++ String.ofList (Text.trim line)) =
        (addDetail diagnostic line).message ++
          String.join (later.map fun line => "\n" ++ String.ofList (Text.trim line)) := by
    intro later
    simp only [List.map_cons, String.join_cons, addDetail, String.append_assoc]
  rw [completed, others, message]
  rfl

theorem partsFirst_of_isPart {line : List Char} {role : Role} (isPart : role.isPart = true)
    (entries : List (List Char × Role)) :
    partsFirst ((line, role) :: entries) = (line, role) :: partsFirst entries :=
  List.takeWhile_cons_of_pos isPart

theorem partsFirst_of_not_isPart {line : List Char} {role : Role} (noPart : role.isPart = false)
    (entries : List (List Char × Role)) : partsFirst ((line, role) :: entries) = [] :=
  List.takeWhile_cons_of_neg (by rw [noPart]; exact Bool.false_ne_true)

theorem isPart_of_opened? {role : Role} {diagnostic : Diagnostic}
    (opens : role.opened? = some diagnostic) : role.isPart = false := by
  cases role with
  | located _ _ | general _ _ | count | unparsed =>
      rfl
  | echo | caret | detail =>
      cases opens

namespace Reading

/-- The messages after further lines: the finished ones, the current one with what the lines
add to it, and those that the lines tell. -/
def resumed (reading : Reading) (entries : List (List Char × Role)) : List Diagnostic :=
  reading.finished ++
    ((reading.current.map fun current => completed current.1 (partsFirst entries)).toList ++
      told entries)

theorem resumed_nil (reading : Reading) : reading.resumed [] = reading.diagnostics := by
  rw [resumed, told, List.append_nil, diagnostics]
  cases reading.current with
  | none =>
      rfl
  | some current =>
      exact congrArg (reading.finished ++ [·]) (completed_nil current.1)

/-- A line that is no part of a message ends the current one. -/
theorem resumed_of_not_isPart (reading : Reading) {line : List Char} {role : Role}
    (noPart : role.isPart = false) (entries : List (List Char × Role)) :
    reading.resumed ((line, role) :: entries) =
      reading.diagnostics ++
        ((role.opened?.map fun diagnostic => completed diagnostic (partsFirst entries)).toList ++
          told entries) := by
  rw [resumed, partsFirst_of_not_isPart noPart, told, diagnostics, List.append_assoc]
  cases reading.current with
  | none =>
      rfl
  | some current =>
      rw [Option.map_some, completed_nil]
      rfl

/-- A line that is part of a message is told with the current one. -/
theorem resumed_of_isPart {reading : Reading} {diagnostic : Diagnostic} {part : Part}
    (current : reading.current = some (diagnostic, part)) {line : List Char} {role : Role}
    (isPart : role.isPart = true) (noHeader : role.opened? = none)
    (entries : List (List Char × Role)) :
    reading.resumed ((line, role) :: entries) =
      reading.finished ++
        (completed diagnostic ((line, role) :: partsFirst entries) :: told entries) := by
  rw [resumed, partsFirst_of_isPart isPart, told, current, noHeader]
  rfl

end Reading

/-- What is told stays the same when a line is read. -/
theorem Taken.resumed {reading after : Reading} {line : List Char} {role : Role}
    (taken : Taken reading line role after) (entries : List (List Char × Role)) :
    reading.resumed ((line, role) :: entries) = after.resumed entries := by
  cases taken with
  | header opens isNext =>
      rw [reading.resumed_of_not_isPart (isPart_of_opened? opens), opens]
      rfl
  | count | unparsed =>
      exact reading.resumed_of_not_isPart rfl entries
  | echo current =>
      rw [Reading.resumed_of_isPart current rfl rfl, completed_echo]
      rfl
  | caret current =>
      rw [Reading.resumed_of_isPart current rfl rfl, completed_caret]
      rfl
  | detail current =>
      rw [Reading.resumed_of_isPart current rfl rfl, completed_detail]
      rfl

theorem Taken.append_unparsedLines {reading after : Reading} {line : List Char} {role : Role}
    (taken : Taken reading line role after) (entries : List (List Char × Role)) :
    reading.unparsed ++ unparsedLines ((line, role) :: entries) =
      after.unparsed ++ unparsedLines entries := by
  cases taken with
  | @header role diagnostic next opens isNext =>
      cases role with
      | located _ _ | general _ _ =>
          rfl
      | count | echo | caret | detail | unparsed =>
          cases opens
  | count | echo current | caret current | detail current =>
      rfl
  | unparsed =>
      change reading.unparsed ++ ([String.ofList line] ++ unparsedLines entries) = _
      rw [← List.append_assoc]
      rfl

/-- What is read of lines is what they tell by their roles. -/
theorem Classified.foldl_take {previous : Option Role} {entries : List (List Char × Role)}
    (classified : Classified previous entries)
    (visible : ∀ entry ∈ entries, Text.isBlank entry.1 = false) {reading : Reading}
    (expects : reading.Expects previous) :
    ((entries.map Prod.fst).foldl Reading.take reading).diagnostics = reading.resumed entries ∧
      ((entries.map Prod.fst).foldl Reading.take reading).unparsed =
        reading.unparsed ++ unparsedLines entries := by
  induction entries generalizing previous reading with
  | nil =>
      exact ⟨reading.resumed_nil.symm, (List.append_nil _).symm⟩
  | cons entry entries inductionHypothesis =>
      obtain ⟨line, role⟩ := entry
      obtain ⟨here, later⟩ := classified
      obtain ⟨visibleHere, visibleLater⟩ := List.forall_mem_cons.1 visible
      have taken := here.taken visibleHere expects
      obtain ⟨messages, others⟩ := inductionHypothesis later visibleLater taken.expects
      rw [List.map_cons, List.foldl_cons, taken.resumed entries, taken.append_unparsedLines entries]
      exact ⟨messages, others⟩

end AheadOfTime.CompilerOutput
