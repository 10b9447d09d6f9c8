import AheadOfTime.Compilation.Output
import AheadOfTime.Proofs.Identifier

/-!
# The lines of compiler output

When a line is a header, and when it counts messages, is told by what it consists of.
The name of a source file in a header ends where nothing after it reads as the end of
another one.
-/

namespace AheadOfTime.CompilerOutput

def locatedMark (severity : Severity) : List Char :=
  severity.word.toList ++ [':', ' ']

/-- A severity as it is written at the start of a line. -/
def generalMark : Severity → List Char
  | .error => "error: ".toList
  | .warning => "warning: ".toList
  | .note => "Note: ".toList

theorem dropWord?_locatedWords_iff {text rest : List Char} {severity : Severity} :
    dropWord? locatedWords text = some (severity, rest) ↔
      text = locatedMark severity ++ rest := by
  constructor
  · intro found
    obtain ⟨⟨word, meaning⟩, member, dropped⟩ := List.exists_of_findSome?_eq_some found
    obtain ⟨after, isAfter, same⟩ := Option.map_eq_some_iff.1 dropped
    cases same
    rw [Text.dropStart?_eq_some_iff.1 isAfter]
    simp only [locatedWords, List.mem_cons, List.not_mem_nil, or_false, Prod.mk.injEq] at member
    rcases member with ⟨rfl, rfl⟩ | ⟨rfl, rfl⟩ | ⟨rfl, rfl⟩
    · rfl
    · rfl
    · rfl
  · rintro rfl
    cases severity <;> rfl

theorem dropWord?_generalWords_iff {text rest : List Char} {severity : Severity} :
    dropWord? generalWords text = some (severity, rest) ↔
      text = generalMark severity ++ rest := by
  constructor
  · intro found
    obtain ⟨⟨word, meaning⟩, member, dropped⟩ := List.exists_of_findSome?_eq_some found
    obtain ⟨after, isAfter, same⟩ := Option.map_eq_some_iff.1 dropped
    cases same
    rw [Text.dropStart?_eq_some_iff.1 isAfter]
    simp only [generalWords, List.mem_cons, List.not_mem_nil, or_false, Prod.mk.injEq] at member
    rcases member with ⟨rfl, rfl⟩ | ⟨rfl, rfl⟩ | ⟨rfl, rfl⟩
    · rfl
    · rfl
    · rfl
  · rintro rfl
    cases severity <;> rfl

/-- Decimal digits of any script, at least one. -/
structure AreDigits (digits : List Char) : Prop where
  nonempty : digits ≠ []
  each : ∀ c ∈ digits, Unicode.isDecimalDigit c = true

theorem takeWhile_digits {digits : List Char} (areDigits : AreDigits digits) {c : Char}
    (other : Unicode.isDecimalDigit c = false) (rest : List Char) :
    (digits ++ c :: rest).takeWhile Unicode.isDecimalDigit = digits ∧
      (digits ++ c :: rest).dropWhile Unicode.isDecimalDigit = c :: rest := by
  have stop : ¬ Unicode.isDecimalDigit c = true := by
    rw [other]
    exact Bool.false_ne_true
  constructor
  · rw [List.takeWhile_append_of_pos areDigits.each, List.takeWhile_cons_of_neg stop,
      List.append_nil]
  · rw [List.dropWhile_append_of_pos areDigits.each, List.dropWhile_cons_of_neg stop]

theorem areDigits_takeWhile {text : List Char}
    (nonempty : (text.takeWhile Unicode.isDecimalDigit).isEmpty = false) :
    AreDigits (text.takeWhile Unicode.isDecimalDigit) where
  nonempty := by
    intro none
    rw [none] at nonempty
    cases nonempty
  each c member := List.all_eq_true.1 List.all_takeWhile c member

/-- What follows the name of a source file, as it is written. -/
def HeaderTail.text (tail : HeaderTail) : List Char :=
  ':' :: (tail.digits ++ ':' :: ' ' :: (locatedMark tail.severity ++ tail.message))

theorem headerTail?_eq_some_iff {text : List Char} {tail : HeaderTail} :
    headerTail? text = some tail ↔ text = tail.text ∧ AreDigits tail.digits := by
  constructor
  · intro found
    unfold headerTail? at found
    split at found
    · cases found
    · rename_i afterColon isAfterColon
      rw [Text.dropStart?_eq_some_iff.1 isAfterColon]
      simp only at found
      split at found
      · cases found
      · rename_i nonempty
        split at found
        · cases found
        · rename_i afterLine isAfterLine
          obtain ⟨⟨severity, message⟩, isWord, same⟩ := Option.map_eq_some_iff.1 found
          subst same
          have digits := areDigits_takeWhile (Bool.not_eq_true _ ▸ nonempty)
          have line := List.takeWhile_append_dropWhile (p := Unicode.isDecimalDigit)
            (l := afterColon)
          rw [Text.dropStart?_eq_some_iff.1 isAfterLine,
            dropWord?_locatedWords_iff.1 isWord] at line
          refine ⟨?_, digits⟩
          change ':' :: afterColon = ':' :: (afterColon.takeWhile Unicode.isDecimalDigit ++
            ([':', ' '] ++ (locatedMark severity ++ message)))
          rw [line]
  · rintro ⟨rfl, digits⟩
    have colon : Unicode.isDecimalDigit ':' = false := by decide
    obtain ⟨taken, dropped⟩ := takeWhile_digits digits colon
      (' ' :: (locatedMark tail.severity ++ tail.message))
    have word := dropWord?_locatedWords_iff.2
      (rfl : locatedMark tail.severity ++ tail.message = _)
    have start : Text.dropStart? [':'] tail.text =
        some (tail.digits ++ ':' :: ' ' :: (locatedMark tail.severity ++ tail.message)) :=
      Text.dropStart?_eq_some_iff.2 rfl
    have next : Text.dropStart? [':', ' ']
        (':' :: ' ' :: (locatedMark tail.severity ++ tail.message)) =
          some (locatedMark tail.severity ++ tail.message) :=
      Text.dropStart?_eq_some_iff.2 rfl
    have nonempty : tail.digits.isEmpty = false := by
      rw [List.isEmpty_eq_false_iff]
      exact digits.nonempty
    rw [headerTail?, start]
    simp only [taken, dropped, nonempty, next, word, Option.map_some, Bool.false_eq_true,
      if_false]

/-- Whether the end of a source file's name with a position after it is in a text. -/
def HoldsPosition (text : List Char) : Prop :=
  ∃ before tail, AreDigits (HeaderTail.digits tail) ∧
    text = before ++ (sourceEnd ++ tail.text)

theorem holdsPosition_cons_iff {c : Char} {rest : List Char} :
    HoldsPosition (c :: rest) ↔
      HoldsPosition rest ∨
        ∃ tail, AreDigits (HeaderTail.digits tail) ∧ c :: rest = sourceEnd ++ tail.text := by
  constructor
  · rintro ⟨before, tail, digits, parts⟩
    cases before with
    | nil =>
        exact .inr ⟨tail, digits, parts⟩
    | cons first before =>
        exact .inl ⟨before, tail, digits, (List.cons.inj parts).2⟩
  · rintro (⟨before, tail, digits, rfl⟩ | ⟨tail, digits, parts⟩)
    · exact ⟨c :: before, tail, digits, rfl⟩
    · exact ⟨[], tail, digits, parts⟩

/-- A position begins with a point, so it is not before a text without one. -/
theorem holdsPosition_of_append {first second : List Char} (noPoint : '.' ∉ first)
    (holds : HoldsPosition (first ++ second)) : HoldsPosition second := by
  induction first with
  | nil =>
      exact holds
  | cons c first inductionHypothesis =>
      rw [List.mem_cons, not_or] at noPoint
      rcases holdsPosition_cons_iff.1 holds with later | ⟨tail, -, parts⟩
      · exact inductionHypothesis noPoint.2 later
      · have point : c = '.' := (List.cons.inj parts).1
        exact absurd point.symm noPoint.1

theorem not_holdsPosition_nil : ¬ HoldsPosition [] := by
  rintro ⟨before, tail, -, parts⟩
  have length := congrArg List.length parts
  simp only [List.length_nil, List.length_append, sourceEnd, List.length_cons] at length
  omega

theorem not_holdsPosition_of_noPoint {text : List Char} (noPoint : '.' ∉ text) :
    ¬ HoldsPosition text := by
  intro holds
  rw [← List.append_nil text] at holds
  exact not_holdsPosition_nil (holdsPosition_of_append noPoint holds)

theorem headerTail?_bind_eq_some_iff {text : List Char} {tail : HeaderTail} :
    (Text.dropStart? sourceEnd text).bind headerTail? = some tail ↔
      text = sourceEnd ++ tail.text ∧ AreDigits tail.digits := by
  rw [Option.bind_eq_some_iff]
  constructor
  · rintro ⟨rest, isRest, found⟩
    obtain ⟨rfl, digits⟩ := headerTail?_eq_some_iff.1 found
    exact ⟨Text.dropStart?_eq_some_iff.1 isRest, digits⟩
  · rintro ⟨rfl, digits⟩
    exact ⟨tail.text, Text.dropStart?_eq_some_iff.2 rfl, headerTail?_eq_some_iff.2 ⟨rfl, digits⟩⟩

/-- A line is a header about a source file when a position comes after its first
character. -/
theorem located?_eq_none_iff {line : List Char} :
    located? line = none ↔ ¬ HoldsPosition line.tail := by
  induction line with
  | nil =>
      exact ⟨fun _ => not_holdsPosition_nil, fun _ => rfl⟩
  | cons c rest inductionHypothesis =>
      rw [located?, List.tail_cons]
      cases found : located? rest with
      | some header =>
          rw [found] at inductionHypothesis
          have holds : HoldsPosition rest.tail :=
            Classical.not_not.1 fun absent => by cases inductionHypothesis.2 absent
          obtain ⟨before, tail, digits, parts⟩ := holds
          cases rest with
          | nil =>
              cases found
          | cons next rest =>
              have inRest : rest = before ++ (sourceEnd ++ tail.text) := parts
              have holdsLater : HoldsPosition (next :: rest) :=
                holdsPosition_cons_iff.2 (.inl ⟨before, tail, digits, inRest⟩)
              exact iff_of_false (fun none => by cases none) fun absent => absent holdsLater
      | none =>
          rw [found] at inductionHypothesis
          have absent := inductionHypothesis.1 rfl
          rw [Option.map_eq_none_iff]
          constructor
          · intro none holds
            cases rest with
            | nil =>
                exact not_holdsPosition_nil holds
            | cons next rest =>
                rcases holdsPosition_cons_iff.1 holds with later | ⟨tail, digits, parts⟩
                · exact absent later
                · rw [headerTail?_bind_eq_some_iff.2 ⟨parts, digits⟩] at none
                  cases none
          · intro noPosition
            rw [Option.eq_none_iff_forall_ne_some]
            intro tail isTail
            obtain ⟨parts, digits⟩ := headerTail?_bind_eq_some_iff.1 isTail
            exact noPosition ⟨[], tail, digits, parts⟩

theorem dot_not_mem_digits {digits : List Char} (areDigits : AreDigits digits) :
    '.' ∉ digits := by
  intro member
  have point := areDigits.each '.' member
  revert point
  decide

/-- The name of the source file in a header ends before the last position. -/
theorem located?_header {stem : List Char} {tail : HeaderTail} (named : stem ≠ [])
    (digits : AreDigits tail.digits) (last : ¬ HoldsPosition tail.message) :
    located? (stem ++ (sourceEnd ++ tail.text)) = some (stem ++ sourceEnd, tail) := by
  have noneLater : located? (sourceEnd ++ tail.text) = none := by
    rw [located?_eq_none_iff]
    intro holds
    have parts : (sourceEnd ++ tail.text).tail =
        ("java:".toList ++ tail.digits ++ (": ".toList ++ locatedMark tail.severity)) ++
          tail.message := by
      simp [sourceEnd, HeaderTail.text]
    rw [parts] at holds
    refine last (holdsPosition_of_append ?_ holds)
    have inMark : '.' ∉ ": ".toList ++ locatedMark tail.severity := by
      cases tail.severity <;> decide
    simp only [List.mem_append, not_or] at inMark ⊢
    exact ⟨⟨by decide, dot_not_mem_digits digits⟩, inMark⟩
  have isTail := headerTail?_bind_eq_some_iff.2 ⟨(rfl : sourceEnd ++ tail.text = _), digits⟩
  induction stem with
  | nil =>
      exact absurd rfl named
  | cons c stem inductionHypothesis =>
      cases stem with
      | nil =>
          rw [List.singleton_append, located?, noneLater, isTail]
          rfl
      | cons next stem =>
          have later := inductionHypothesis (List.cons_ne_nil _ _)
          rw [List.cons_append, located?, later]
          rfl

/-! ## Lines that count -/

/-- Whether a line is a number and a word for errors or warnings. -/
def IsCount (line : List Char) : Prop :=
  ∃ digits word, AreDigits digits ∧ word ∈ summaryWords ∧ line = digits ++ word.toList

theorem isSummary_eq_true_iff {line : List Char} : isSummary line = true ↔ IsCount line := by
  constructor
  · intro counts
    rw [isSummary, Bool.and_eq_true, Bool.not_eq_true'] at counts
    obtain ⟨nonempty, isWord⟩ := counts
    refine ⟨_, _, areDigits_takeWhile nonempty, List.contains_iff_mem.1 isWord, ?_⟩
    rw [String.toList_ofList, List.takeWhile_append_dropWhile]
  · rintro ⟨digits, word, areDigits, isWord, rfl⟩
    have blank : Unicode.isDecimalDigit ' ' = false := by decide
    have begins : ∀ word ∈ summaryWords, ∃ rest, word.toList = ' ' :: rest := by
      intro word member
      simp only [summaryWords, List.mem_cons, List.not_mem_nil, or_false] at member
      rcases member with rfl | rfl | rfl | rfl
      · exact ⟨_, rfl⟩
      · exact ⟨_, rfl⟩
      · exact ⟨_, rfl⟩
      · exact ⟨_, rfl⟩
    obtain ⟨rest, parts⟩ := begins word isWord
    obtain ⟨taken, dropped⟩ := takeWhile_digits areDigits blank rest
    have nonempty : digits.isEmpty = false := by
      rw [List.isEmpty_eq_false_iff]
      exact areDigits.nonempty
    rw [isSummary, parts, taken, dropped, nonempty, ← parts, String.ofList_toList]
    exact List.contains_iff_mem.2 isWord

theorem isBlank_eq_false_of_mem {c : Char} {line : List Char} (member : c ∈ line)
    (visible : Unicode.isBlank c = false) : Text.isBlank line = false := by
  rw [Bool.eq_false_iff]
  intro blank
  rw [List.all_eq_true.1 blank c member] at visible
  cases visible

theorem tail_generalMark (severity : Severity) (message : List Char) :
    (generalMark severity ++ message).tail = (generalMark severity).tail ++ message ∧
      '.' ∉ (generalMark severity).tail := by
  cases severity with
  | error =>
      exact ⟨rfl, by decide⟩
  | warning =>
      exact ⟨rfl, by decide⟩
  | note =>
      exact ⟨rfl, by decide⟩

/-- A severity at the start does not make a line a header about a source file. -/
theorem located?_generalMark {severity : Severity} {message : List Char}
    (last : ¬ HoldsPosition message) :
    located? (generalMark severity ++ message) = none := by
  obtain ⟨parts, noPoint⟩ := tail_generalMark severity message
  rw [located?_eq_none_iff, parts]
  exact fun holds => last (holdsPosition_of_append noPoint holds)

/-- A line that counts is no header. -/
theorem IsCount.not_header {line : List Char} (counts : IsCount line) :
    located? line = none ∧ dropWord? generalWords line = none := by
  obtain ⟨digits, word, areDigits, isWord, rfl⟩ := counts
  have inWords : ∀ word ∈ summaryWords, '.' ∉ word.toList := by
    decide
  have noPosition : ¬ HoldsPosition (digits ++ word.toList).tail := by
    apply not_holdsPosition_of_noPoint
    intro member
    rcases List.mem_append.1 (List.mem_of_mem_tail member) with inDigits | inWord
    · exact dot_not_mem_digits areDigits inDigits
    · exact inWords word isWord inWord
  refine ⟨located?_eq_none_iff.2 noPosition, ?_⟩
  rw [Option.eq_none_iff_forall_ne_some]
  rintro ⟨severity, message⟩ found
  have parts := dropWord?_generalWords_iff.1 found
  obtain ⟨first, others, rfl⟩ := List.exists_cons_of_ne_nil areDigits.nonempty
  have digit := areDigits.each first List.mem_cons_self
  cases severity <;> (rw [(List.cons.inj parts).1] at digit; revert digit; decide)

/-- Whether a line is neither a header nor a line that counts. -/
structure IsUnmatched (line : List Char) : Prop where
  noPosition : ¬ HoldsPosition line.tail
  noMark : ∀ severity message, line ≠ generalMark severity ++ message
  noCount : ¬ IsCount line

theorem IsUnmatched.not_matched {line : List Char} (unmatched : IsUnmatched line) :
    located? line = none ∧ dropWord? generalWords line = none ∧ isSummary line = false := by
  refine ⟨located?_eq_none_iff.2 unmatched.noPosition, ?_, ?_⟩
  · rw [Option.eq_none_iff_forall_ne_some]
    rintro ⟨severity, message⟩ found
    exact unmatched.noMark severity message (dropWord?_generalWords_iff.1 found)
  · rw [Bool.eq_false_iff]
    exact fun counts => unmatched.noCount (isSummary_eq_true_iff.1 counts)

namespace Line

theorem of_blank {line : List Char} (isBlank : Text.isBlank line = true) :
    of line = blank := by
  rw [of, if_pos isBlank]

theorem of_header {stem : List Char} {tail : HeaderTail} (named : stem ≠ [])
    (digits : AreDigits tail.digits) (last : ¬ HoldsPosition tail.message) :
    of (stem ++ (sourceEnd ++ tail.text)) =
      header
        (.located tail.severity (String.ofList tail.message)
          ⟨String.ofList (stem ++ sourceEnd)⟩ (lineNumber tail.digits))
        .source := by
  have visible : Text.isBlank (stem ++ (sourceEnd ++ tail.text)) = false := by
    apply isBlank_eq_false_of_mem (c := '.')
    · exact List.mem_append_right _ List.mem_cons_self
    · exact Unicode.not_isBlank_of_bounds (by decide) (by decide)
  rw [of, visible, located?_header named digits last]
  rfl

theorem of_general {severity : Severity} {message : List Char}
    (last : ¬ HoldsPosition message) :
    of (generalMark severity ++ message) =
      header (.general severity (String.ofList message)) .detail := by
  have visible : Text.isBlank (generalMark severity ++ message) = false := by
    apply isBlank_eq_false_of_mem (c := ':')
    · refine List.mem_append_left _ ?_
      cases severity <;> decide
    · exact Unicode.not_isBlank_of_bounds (by decide) (by decide)
  rw [of, visible, located?_generalMark last, dropWord?_generalWords_iff.2 rfl]
  rfl

theorem of_unmatched {line : List Char} (visible : Text.isBlank line = false)
    (unmatched : IsUnmatched line) : of line = plain := by
  obtain ⟨notLocated, notGeneral, notSummary⟩ := unmatched.not_matched
  rw [of, visible, notLocated, notGeneral, notSummary]
  rfl

theorem isUnmatched_of_plain {line : List Char} (isPlain : of line = plain) :
    IsUnmatched line := by
  unfold of at isPlain
  split at isPlain
  · cases isPlain
  · split at isPlain
    · cases isPlain
    · rename_i notLocated
      split at isPlain
      · cases isPlain
      · rename_i notGeneral
        split at isPlain
        · cases isPlain
        · rename_i notSummary
          refine ⟨located?_eq_none_iff.1 notLocated, fun severity message parts => ?_, ?_⟩
          · rw [dropWord?_generalWords_iff.2 parts] at notGeneral
            cases notGeneral
          · exact fun counts => notSummary (isSummary_eq_true_iff.2 counts)

theorem of_count {line : List Char} (counts : IsCount line) : of line = summary := by
  have isSummaryLine := isSummary_eq_true_iff.2 counts
  obtain ⟨notLocated, notGeneral⟩ := counts.not_header
  obtain ⟨digits, word, -, isWord, rfl⟩ := counts
  have inWords : ∀ word ∈ summaryWords, 'r' ∈ word.toList := by
    decide
  have visible : Text.isBlank (digits ++ word.toList) = false := by
    apply isBlank_eq_false_of_mem (c := 'r')
    · exact List.mem_append_right _ (inWords word isWord)
    · exact Unicode.not_isBlank_of_bounds (by decide) (by decide)
  rw [of, visible, notLocated, notGeneral, isSummaryLine]
  rfl

end Line

def IsCaret (line : List Char) : Prop :=
  ∃ before after, Text.isBlank before = true ∧ Text.isBlank after = true ∧
    line = before ++ '^' :: after

theorem not_isBlank_caret : Unicode.isBlank '^' = false :=
  Unicode.not_isBlank_of_bounds (by decide) (by decide)

theorem isBlank_eq_false_of_isCaret {line : List Char} (caret : IsCaret line) :
    Text.isBlank line = false := by
  obtain ⟨before, after, -, -, rfl⟩ := caret
  apply isBlank_eq_false_of_mem (c := '^')
  · exact List.mem_append_right _ List.mem_cons_self
  · exact not_isBlank_caret

theorem trim_eq_caret_iff {line : List Char} : Text.trim line = ['^'] ↔ IsCaret line := by
  have visible : ¬ Unicode.isBlank '^' = true := by
    rw [not_isBlank_caret]
    exact Bool.false_ne_true
  constructor
  · intro trimmed
    have start := List.takeWhile_append_dropWhile (p := Unicode.isBlank) (l := line)
    have ending := List.takeWhile_append_dropWhile (p := Unicode.isBlank)
      (l := (Text.trimStart line).reverse)
    have kept : ((Text.trimStart line).reverse.dropWhile Unicode.isBlank) = ['^'] := by
      rw [← List.reverse_reverse (List.dropWhile _ _)]
      exact congrArg List.reverse trimmed
    rw [kept] at ending
    have parts := congrArg List.reverse ending
    rw [List.reverse_append, List.reverse_reverse] at parts
    refine ⟨line.takeWhile Unicode.isBlank,
      ((Text.trimStart line).reverse.takeWhile Unicode.isBlank).reverse,
      List.all_takeWhile, ?_, ?_⟩
    · rw [Text.isBlank, List.all_reverse]
      exact List.all_takeWhile
    · refine start.symm.trans ?_
      exact congrArg (line.takeWhile Unicode.isBlank ++ ·) parts.symm
  · rintro ⟨before, after, blankBefore, blankAfter, rfl⟩
    have start : Text.trimStart (before ++ '^' :: after) = '^' :: after := by
      rw [Text.trimStart, List.dropWhile_append_of_pos (List.all_eq_true.1 blankBefore),
        List.dropWhile_cons_of_neg visible]
    have reversed : ∀ c ∈ after.reverse, Unicode.isBlank c = true :=
      fun c member => List.all_eq_true.1 blankAfter c (List.mem_reverse.1 member)
    rw [Text.trim, start, Text.trimEnd, List.reverse_cons,
      List.dropWhile_append_of_pos reversed, List.dropWhile_cons_of_neg visible]
    rfl

theorem isUnmatched_of_isCaret {line : List Char} (caret : IsCaret line) :
    IsUnmatched line := by
  obtain ⟨before, after, blankBefore, blankAfter, rfl⟩ := caret
  have each : ∀ c ∈ before ++ '^' :: after, c = '^' ∨ Unicode.isBlank c = true := by
    intro c member
    rcases List.mem_append.1 member with inBefore | inRest
    · exact .inr (List.all_eq_true.1 blankBefore c inBefore)
    · rcases List.mem_cons.1 inRest with same | inAfter
      · exact .inl same
      · exact .inr (List.all_eq_true.1 blankAfter c inAfter)
  have absent : ∀ c : Char, c ≠ '^' → 0x20 < c.toNat → c.toNat < 0x85 →
      c ∉ before ++ '^' :: after := by
    intro c different low high member
    rcases each c member with same | blank
    · exact different same
    · rw [Unicode.not_isBlank_of_bounds low high] at blank
      cases blank
  refine ⟨?_, ?_, ?_⟩
  · apply not_holdsPosition_of_noPoint
    exact fun member =>
      absent '.' (by decide) (by decide) (by decide) (List.mem_of_mem_tail member)
  · intro severity message parts
    have colon : ':' ∈ generalMark severity := by
      cases severity <;> decide
    apply absent ':' (by decide) (by decide) (by decide)
    rw [parts]
    exact List.mem_append_left _ colon
  · rintro ⟨digits, word, -, isWord, parts⟩
    have inWords : ∀ word ∈ summaryWords, 'r' ∈ word.toList := by
      decide
    apply absent 'r' (by decide) (by decide) (by decide)
    rw [parts]
    exact List.mem_append_right _ (inWords word isWord)

end AheadOfTime.CompilerOutput
