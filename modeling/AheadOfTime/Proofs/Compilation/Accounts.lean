import Mathlib.Data.List.Induction
import AheadOfTime.Proofs.Compilation.Messages
import AheadOfTime.Proofs.Path

/-!
# Every line is accounted for

Whatever a compiler writes, each visible line has one role, the messages and the lines that are
left over follow from the roles, and a header of an error is an error that is read, whatever
stands around it.
-/

namespace AheadOfTime

theorem Text.feed_not_mem_of_mem_lines {text line : List Char} (member : line ∈ lines text) :
    '\n' ∉ line := by
  have absent : ∀ part ∈ (split '\n' text).reverse, '\n' ∉ part := fun part isPart =>
    separator_not_mem_of_mem_split (List.mem_reverse.1 isPart)
  rw [lines] at member
  cases parts : (split '\n' text).reverse with
  | nil =>
      rw [parts] at member
      cases member
  | cons last ended =>
      rw [parts] at member absent
      obtain ⟨absentLast, absentEnded⟩ := List.forall_mem_cons.1 absent
      have closed : ∀ line ∈ ended.reverse.map (fun line =>
          if line.getLast? = some '\r' then line.dropLast else line), '\n' ∉ line := by
        refine List.forall_mem_map.2 fun line isLine => ?_
        have here := absentEnded line (List.mem_reverse.1 isLine)
        split
        · exact fun inside => here (List.dropLast_subset line inside)
        · exact here
      simp only at member
      split at member
      · exact closed line member
      · rcases List.mem_append.1 member with inClosed | isLast
        · exact closed line inClosed
        · rw [List.mem_singleton.1 isLast]
          exact absentLast

namespace Diagnostic

def firstLine (diagnostic : Diagnostic) : String :=
  String.ofList (diagnostic.message.toList.takeWhile (· ≠ '\n'))

theorem errors_ne_nil_iff {diagnostics : List Diagnostic} :
    errors diagnostics ≠ [] ↔ ∃ diagnostic ∈ diagnostics, diagnostic.severity = .error := by
  rw [errors, Ne, List.filter_eq_nil_iff]
  simp [isError]

/-- Whether a message has a line exactly if it has a source file, and a column only if it has
both. -/
structure IsPlaced (diagnostic : Diagnostic) : Prop where
  line : diagnostic.line.isSome = diagnostic.source.isSome
  column : diagnostic.column.isSome = true →
    diagnostic.line.isSome = true ∧ diagnostic.source.isSome = true

end Diagnostic

namespace CompilerOutput

def visibleLines (text : String) : List (List Char) :=
  (Text.lines text.toList).filter fun line => !Text.isBlank line

/-- Whether the messages that have been read have their places, and the current one has a source
file as long as its echo or its caret may come. -/
structure Reading.IsPlaced (reading : Reading) : Prop where
  finished : ∀ diagnostic ∈ reading.finished, diagnostic.IsPlaced
  current : ∀ diagnostic part, reading.current = some (diagnostic, part) →
    diagnostic.IsPlaced ∧ (part ≠ .detail → diagnostic.source.isSome = true)

theorem Reading.IsPlaced.diagnostics {reading : Reading} (placed : reading.IsPlaced) :
    ∀ diagnostic ∈ reading.diagnostics, diagnostic.IsPlaced := by
  intro diagnostic member
  rcases List.mem_append.1 member with isFinished | isCurrent
  · exact placed.finished diagnostic isFinished
  · obtain ⟨⟨found, part⟩, current, same⟩ :=
      Option.map_eq_some_iff.1 (Option.mem_toList.1 isCurrent)
    rw [← same]
    exact (placed.current found part current).1

theorem Reading.IsPlaced.goOn {reading : Reading} {diagnostic : Diagnostic} {part : Part}
    (finished : ∀ diagnostic ∈ reading.finished, diagnostic.IsPlaced)
    (here : diagnostic.IsPlaced) (needs : part ≠ .detail → diagnostic.source.isSome = true) :
    (reading.goOn diagnostic part).IsPlaced := by
  refine ⟨finished, ?_⟩
  rintro _ _ ⟨⟩
  exact ⟨here, needs⟩

theorem Reading.IsPlaced.finish {reading : Reading} (placed : reading.IsPlaced) :
    reading.finish.IsPlaced :=
  ⟨placed.diagnostics, fun _ _ current => by cases current⟩

theorem Taken.isPlaced {reading after : Reading} {line : List Char} {role : Role}
    (taken : Taken reading line role after) (placed : reading.IsPlaced) : after.IsPlaced := by
  cases taken with
  | @header role diagnostic next opens isNext =>
      refine Reading.IsPlaced.goOn placed.diagnostics ?_ ?_
      · cases role with
        | located source tail =>
            cases opens
            exact ⟨rfl, fun column => by cases column⟩
        | general severity message =>
            cases opens
            exact ⟨rfl, fun column => by cases column⟩
        | count | echo | caret | detail | unparsed =>
            cases opens
      · intro needed
        cases role with
        | located source tail =>
            cases opens
            rfl
        | general severity message =>
            cases isNext
            exact absurd rfl needed
        | count | echo | caret | detail | unparsed =>
            cases opens
  | count =>
      exact placed.finish
  | echo current =>
      obtain ⟨here, needs⟩ := placed.current _ _ current
      exact .goOn placed.finished here fun _ => needs nofun
  | caret current =>
      obtain ⟨here, needs⟩ := placed.current _ _ current
      refine .goOn placed.finished ⟨here.line, fun _ => ?_⟩ fun needed => absurd rfl needed
      exact ⟨here.line.trans (needs nofun), needs nofun⟩
  | detail current =>
      obtain ⟨here, -⟩ := placed.current _ _ current
      exact .goOn placed.finished ⟨here.line, here.column⟩ fun needed => absurd rfl needed
  | unparsed =>
      exact ⟨placed.finish.finished, placed.finish.current⟩

theorem Classified.isPlaced {previous : Option Role} {entries : List (List Char × Role)}
    (classified : Classified previous entries)
    (visible : ∀ entry ∈ entries, Text.isBlank entry.1 = false) {reading : Reading}
    (expects : reading.Expects previous) (placed : reading.IsPlaced) :
    ((entries.map Prod.fst).foldl Reading.take reading).IsPlaced := by
  induction entries generalizing previous reading with
  | nil =>
      exact placed
  | cons entry entries inductionHypothesis =>
      obtain ⟨line, role⟩ := entry
      obtain ⟨here, later⟩ := classified
      obtain ⟨visibleHere, visibleLater⟩ := List.forall_mem_cons.1 visible
      have taken := here.taken visibleHere expects
      exact inductionHypothesis later visibleLater taken.expects (taken.isPlaced placed)

theorem length_told (entries : List (List Char × Role)) :
    (told entries).length = entries.countP fun entry => entry.2.opened?.isSome := by
  induction entries with
  | nil =>
      rfl
  | cons entry entries inductionHypothesis =>
      obtain ⟨line, role⟩ := entry
      rw [told, List.length_append, inductionHypothesis, List.countP_cons]
      cases role.opened? with
      | none =>
          exact Nat.zero_add _
      | some diagnostic =>
          exact Nat.add_comm _ _

/-- What the lines after a header do not change is what the header says. -/
theorem map_told {β : Type} {view said : Diagnostic → β} {entries : List (List Char × Role)}
    (kept : ∀ entry ∈ entries, ∀ diagnostic ∈ entry.2.opened?, ∀ parts,
      view (completed diagnostic parts) = said diagnostic) :
    (told entries).map view = entries.filterMap fun entry => entry.2.opened?.map said := by
  induction entries with
  | nil =>
      rfl
  | cons entry entries inductionHypothesis =>
      obtain ⟨line, role⟩ := entry
      obtain ⟨here, later⟩ := List.forall_mem_cons.1 kept
      rw [told, List.map_append, inductionHypothesis later]
      cases opens : role.opened? with
      | none =>
          rw [List.filterMap_cons_none (by rw [opens]; rfl)]
          rfl
      | some diagnostic =>
          rw [List.filterMap_cons_some (b := said diagnostic) (by rw [opens]; rfl)]
          exact congrArg (· :: _) (here diagnostic opens _)

theorem firstLine_completed {diagnostic : Diagnostic} (noFeed : '\n' ∉ diagnostic.message.toList)
    (parts : List (List Char × Role)) :
    (completed diagnostic parts).firstLine = diagnostic.message := by
  have before : ∀ c ∈ diagnostic.message.toList, decide (c ≠ '\n') = true := by
    intro c member
    rw [decide_eq_true_eq]
    rintro rfl
    exact noFeed member
  rw [Diagnostic.firstLine, completed, String.toList_append,
    List.takeWhile_append_of_pos before]
  have ends : (String.join ((details parts).map fun line =>
      "\n" ++ String.ofList (Text.trim line))).toList.takeWhile (· ≠ '\n') = [] := by
    cases details parts with
    | nil =>
        rfl
    | cons line lines =>
        rw [List.map_cons, String.join_cons, String.append_assoc, String.toList_append]
        exact List.takeWhile_cons_of_neg (by decide)
  rw [ends, List.append_nil, String.ofList_toList]

/-- The message of a header is in its line. -/
theorem HasRole.message_suffix {previous : Option Role} {line : List Char} {role : Role}
    (has : HasRole previous line role) {diagnostic : Diagnostic}
    (opens : role.opened? = some diagnostic) : diagnostic.message.toList <:+ line := by
  cases has with
  | @located source tail named digits last =>
      cases opens
      rw [Diagnostic.located, String.toList_ofList]
      refine ⟨source ++ ':' :: (tail.digits ++ ':' :: ' ' :: locatedMark tail.severity), ?_⟩
      simp [HeaderTail.text]
  | general last =>
      cases opens
      rw [Diagnostic.general, String.toList_ofList]
      exact List.suffix_append _ _
  | count | echo _ _ | caret _ _ | detail _ _ _ _ | unparsed _ _ _ _ =>
      cases opens

/-! ## Headers of errors -/

theorem HasRole.isHeader {previous : Option Role} {line : List Char} {role : Role}
    (has : HasRole previous line role) {diagnostic : Diagnostic}
    (opens : role.opened? = some diagnostic) : IsHeader diagnostic.severity line := by
  cases has with
  | located named digits last =>
      obtain ⟨stem, nonempty, rfl⟩ := named
      cases opens
      exact .located nonempty digits last
  | general last =>
      cases opens
      exact .general last
  | count | echo _ _ | caret _ _ | detail _ _ _ _ | unparsed _ _ _ _ =>
      cases opens

/-- A header is read as one, whatever comes before it. -/
theorem IsHeader.hasRole {severity : Severity} {line : List Char}
    (header : IsHeader severity line) (previous : Option Role) :
    ∃ role diagnostic, HasRole previous line role ∧ role.opened? = some diagnostic ∧
      diagnostic.severity = severity := by
  cases header with
  | located named digits last =>
      exact ⟨_, _, .located ⟨_, named, rfl⟩ digits last, rfl, rfl⟩
  | general last =>
      exact ⟨_, _, .general last, rfl, rfl⟩

theorem IsHeader.visible {severity : Severity} {line : List Char}
    (header : IsHeader severity line) : Text.isBlank line = false := by
  apply isBlank_eq_false_of_mem (c := ':')
  · cases header with
    | located named digits last =>
        exact List.mem_append_right _ List.mem_cons_self
    | general last =>
        refine List.mem_append_left _ ?_
        cases severity <;> decide
  · exact Unicode.not_isBlank_of_bounds (by decide) (by decide)

theorem Classified.hasRole {previous : Option Role} {before after : List (List Char × Role)}
    {line : List Char} {role : Role}
    (classified : Classified previous (before ++ (line, role) :: after)) :
    HasRole ((before.getLast?.map Prod.snd).or previous) line role := by
  induction before generalizing previous with
  | nil =>
      exact classified.1
  | cons entry before inductionHypothesis =>
      have here := inductionHypothesis classified.2
      cases before with
      | nil =>
          exact here
      | cons next before =>
          rw [List.getLast?_cons_cons]
          rw [List.getLast?_cons] at here ⊢
          exact here

/-- An error is told exactly if a line is a header of one. -/
theorem Classified.error_told_iff {entries : List (List Char × Role)}
    (classified : Classified none entries) :
    (∃ diagnostic ∈ told entries, diagnostic.severity = .error) ↔
      ∃ line ∈ entries.map Prod.fst, IsHeader .error line := by
  have severities : (told entries).map Diagnostic.severity =
      entries.filterMap fun entry => entry.2.opened?.map Diagnostic.severity :=
    map_told fun _ _ _ _ _ => rfl
  have toldIff : (∃ diagnostic ∈ told entries, diagnostic.severity = .error) ↔
      ∃ entry ∈ entries, ∃ diagnostic, entry.2.opened? = some diagnostic ∧
        diagnostic.severity = .error := by
    rw [← List.mem_map, severities, List.mem_filterMap]
    simp only [Option.map_eq_some_iff]
  rw [toldIff]
  constructor
  · rintro ⟨⟨line, role⟩, member, diagnostic, opens, isError⟩
    obtain ⟨before, after, rfl⟩ := List.append_of_mem member
    refine ⟨line, List.mem_map.2 ⟨_, member, rfl⟩, ?_⟩
    rw [← isError]
    exact classified.hasRole.isHeader opens
  · rintro ⟨line, member, header⟩
    obtain ⟨⟨found, role⟩, isEntry, rfl⟩ := List.mem_map.1 member
    obtain ⟨before, after, rfl⟩ := List.append_of_mem isEntry
    have has := classified.hasRole
    obtain ⟨other, diagnostic, hasToo, opens, isError⟩ := header.hasRole _
    refine ⟨_, isEntry, diagnostic, ?_, isError⟩
    rw [← has.roleAfter_eq, hasToo.roleAfter_eq]
    exact opens

/-- What goes on with a message comes after a header, or after something that goes on with a
message. -/
theorem HasRole.after_of_isPart {previous : Option Role} {line : List Char} {role : Role}
    (has : HasRole previous line role) (isPart : role.isPart = true) :
    ∃ before ∈ previous, before.opened?.isSome = true ∨ before.isPart = true := by
  cases has with
  | echo unmatched after =>
      obtain ⟨source, tail, rfl⟩ := after
      exact ⟨_, rfl, .inl rfl⟩
  | caret isCaret after =>
      exact ⟨_, after, .inr rfl⟩
  | detail unmatched indented after unmarked =>
      obtain ⟨before, isPrevious, takes⟩ := after
      refine ⟨before, isPrevious, ?_⟩
      cases before with
      | general _ _ =>
          exact .inl rfl
      | echo | caret | detail =>
          exact .inr rfl
      | located _ _ | count | unparsed =>
          exact takes.elim
  | located _ _ _ | general _ | count | unparsed _ _ _ _ =>
      cases isPart

/-- Nothing that goes on with a message is lost: it comes after a header, and only what goes on
with the message of that header is in between. -/
theorem Classified.exists_header {entries before after : List (List Char × Role)}
    (classified : Classified none entries) {line : List Char} {role : Role}
    (parts : entries = before ++ (line, role) :: after) (isPart : role.isPart = true) :
    ∃ front header between, before = front ++ header :: between ∧
      header.2.opened?.isSome = true ∧ ∀ entry ∈ between, entry.2.isPart = true := by
  induction before using List.reverseRecOn generalizing line role after with
  | nil =>
      rw [parts] at classified
      obtain ⟨previous, never, -⟩ := classified.1.after_of_isPart isPart
      cases never
  | append_singleton front last inductionHypothesis =>
      obtain ⟨lastLine, lastRole⟩ := last
      have has := (parts ▸ classified : Classified none _).hasRole
      rw [List.getLast?_concat] at has
      obtain ⟨previous, same, isHeader | isPartToo⟩ := has.after_of_isPart isPart
      · cases same
        exact ⟨front, _, [], rfl, isHeader, List.forall_mem_nil _⟩
      · cases same
        rw [List.append_assoc, List.singleton_append] at parts
        obtain ⟨begin, header, between, split, opens, each⟩ :=
          inductionHypothesis parts isPartToo
        refine ⟨begin, header, between ++ [(lastLine, lastRole)], ?_, opens, ?_⟩
        · rw [split, List.append_assoc, List.cons_append]
        · exact List.forall_mem_append.2 ⟨each, List.forall_mem_singleton.2 isPartToo⟩

/-- Whether lines with roles are the visible lines of a text with their roles. -/
structure IsAccount (text : String) (entries : List (List Char × Role)) : Prop where
  lines : entries.map Prod.fst = visibleLines text
  classified : Classified none entries

namespace IsAccount

variable {text : String} {entries : List (List Char × Role)} (isAccount : IsAccount text entries)

include isAccount

theorem mem_lines {entry : List Char × Role} (member : entry ∈ entries) :
    entry.1 ∈ Text.lines text.toList ∧ Text.isBlank entry.1 = false := by
  have isLine : entry.1 ∈ visibleLines text := by
    rw [← isAccount.lines]
    exact List.mem_map.2 ⟨entry, member, rfl⟩
  exact ⟨(List.mem_filter.1 isLine).1, by simpa using (List.mem_filter.1 isLine).2⟩

theorem read_eq : read text = (entries.map Prod.fst).foldl Reading.take .start := by
  rw [isAccount.lines, visibleLines, Reading.foldl_take_visible, read]

theorem visible : ∀ entry ∈ entries, Text.isBlank entry.1 = false :=
  fun _ member => (isAccount.mem_lines member).2

theorem diagnostics_read : (read text).diagnostics = told entries := by
  have expects : Reading.start.Expects none := rfl
  rw [isAccount.read_eq]
  exact (isAccount.classified.foldl_take isAccount.visible expects).1

theorem unparsed_read : (read text).unparsed = unparsedLines entries := by
  have expects : Reading.start.Expects none := rfl
  rw [isAccount.read_eq]
  exact (isAccount.classified.foldl_take isAccount.visible expects).2

theorem isPlaced_read : (read text).IsPlaced := by
  have expects : Reading.start.Expects none := rfl
  rw [isAccount.read_eq]
  refine isAccount.classified.isPlaced isAccount.visible expects ?_
  exact ⟨List.forall_mem_nil _, fun _ _ current => by cases current⟩

/-- A header is visible, so the blank lines of a text count for nothing here. -/
theorem exists_isHeader_iff {severity : Severity} :
    (∃ line ∈ entries.map Prod.fst, IsHeader severity line) ↔
      ∃ line ∈ Text.lines text.toList, IsHeader severity line := by
  rw [isAccount.lines]
  constructor
  · rintro ⟨line, member, header⟩
    exact ⟨line, (List.mem_filter.1 member).1, header⟩
  · rintro ⟨line, member, header⟩
    exact ⟨line, List.mem_filter.2 ⟨member, by rw [header.visible]; rfl⟩, header⟩

/-- The lines after a header leave the first line of its message alone. -/
theorem map_firstLine_told :
    (told entries).map Diagnostic.firstLine =
      entries.filterMap fun entry => entry.2.opened?.map Diagnostic.message := by
  refine map_told fun entry member diagnostic opens parts => firstLine_completed ?_ parts
  intro inside
  obtain ⟨before, after, split⟩ := List.append_of_mem member
  have has := (split ▸ isAccount.classified : Classified none _).hasRole
  exact Text.feed_not_mem_of_mem_lines (isAccount.mem_lines member).1
    ((has.message_suffix opens).subset inside)

end IsAccount

theorem isAccount_classify (text : String) :
    IsAccount text (classify none (visibleLines text)) :=
  ⟨map_fst_classify _ _, classified_classify _ _⟩

/-- An error is read exactly if some line is a header of one. -/
theorem errors_read_ne_nil_iff (text : String) :
    Diagnostic.errors (read text).diagnostics ≠ [] ↔
      ∃ line ∈ Text.lines text.toList, IsHeader .error line := by
  have isAccount := isAccount_classify text
  rw [← isAccount.exists_isHeader_iff, ← isAccount.classified.error_told_iff,
    ← isAccount.diagnostics_read]
  exact Diagnostic.errors_ne_nil_iff

/-- Every line is accounted for. The visible lines of a text have their roles in one way, and
what is read of the text is what they tell by their roles: the messages are those of the
headers, in order, and the lines that belong to no message are kept as they are. An error is
read exactly if some line is a header of one. A message has a line exactly if it has a source
file, a column only if it has both, and begins with the message of its header. While a part of a
message may come there is a last message, and what goes on with a message comes after a header
with nothing else in between. -/
theorem read_accounts_for_lines (text : String) :
    ∃ entries, IsAccount text entries ∧ (∀ others, IsAccount text others → others = entries) ∧
      (read text).unparsed = unparsedLines entries ∧
      (read text).diagnostics = told entries ∧
      (read text).diagnostics.length = entries.countP (fun entry => entry.2.opened?.isSome) ∧
      (Diagnostic.errors (read text).diagnostics ≠ [] ↔
        ∃ line ∈ Text.lines text.toList, IsHeader .error line) ∧
      (∀ diagnostic ∈ (read text).diagnostics, diagnostic.IsPlaced) ∧
      (read text).diagnostics.map Diagnostic.firstLine =
        entries.filterMap (fun entry => entry.2.opened?.map Diagnostic.message) ∧
      (∀ front, front <+: Text.lines text.toList → ∀ diagnostic part,
        (front.foldl Reading.take .start).current = some (diagnostic, part) →
          (front.foldl Reading.take .start).diagnostics.getLast? = some diagnostic) ∧
      ∀ before line role after, entries = before ++ (line, role) :: after →
        role.isPart = true →
          ∃ front header between, before = front ++ header :: between ∧
            header.2.opened?.isSome = true ∧ ∀ entry ∈ between, entry.2.isPart = true := by
  have unique : ∀ others, IsAccount text others → others = classify none (visibleLines text) := by
    intro others account
    rw [account.classified.eq_classify, account.lines]
  have isAccount := isAccount_classify text
  generalize classify none (visibleLines text) = entries at isAccount unique
  refine ⟨entries, isAccount, unique, isAccount.unparsed_read, isAccount.diagnostics_read, ?_,
    errors_read_ne_nil_iff text, isAccount.isPlaced_read.diagnostics, ?_, ?_, ?_⟩
  · rw [isAccount.diagnostics_read]
    exact length_told entries
  · rw [isAccount.diagnostics_read]
    exact isAccount.map_firstLine_told
  · intro front _ diagnostic part current
    rw [Reading.diagnostics, current]
    exact List.getLast?_concat
  · exact fun before line role after parts isPart =>
      isAccount.classified.exists_header parts isPart

end CompilerOutput

end AheadOfTime
