import AheadOfTime.Proofs.Compilation.Report

/-!
# What the lines of compiler output are for

Each visible line of any output has one role, which its text and the role of the visible
line before it decide: it is a header, a count, the echo of a line of source, a caret, a line
of details, or it belongs to no message.  The messages that are read are those of the headers,
each with the carets and the details that follow it, so no line is lost: every echo, caret
and line of details comes after a header with nothing but such lines in between.
-/

namespace AheadOfTime.CompilerOutput

theorem holdsPosition_append (first : List Char) {second : List Char}
    (holds : HoldsPosition second) : HoldsPosition (first ++ second) := by
  obtain ⟨before, tail, digits, parts⟩ := holds
  exact ⟨first ++ before, tail, digits, by rw [parts, List.append_assoc]⟩

/-- The name of a source file, with a position after it, makes a line a header. -/
theorem of_located? {line source : List Char} {tail : HeaderTail}
    (found : located? line = some (source, tail)) :
    (∃ stem, stem ≠ [] ∧ source = stem ++ sourceEnd) ∧ line = source ++ tail.text ∧
      AreDigits tail.digits ∧ ¬ HoldsPosition tail.message := by
  induction line generalizing source with
  | nil =>
      cases found
  | cons c rest inductionHypothesis =>
      rw [located?] at found
      cases later : located? rest with
      | some both =>
          obtain ⟨name, others⟩ := both
          rw [later] at found
          cases found
          obtain ⟨⟨stem, -, isName⟩, parts, digits, last⟩ := inductionHypothesis later
          refine ⟨⟨c :: stem, List.cons_ne_nil _ _, ?_⟩, ?_, digits, last⟩
          · rw [isName, List.cons_append]
          · rw [parts, List.cons_append]
      | none =>
          rw [later] at found
          obtain ⟨others, isTail, same⟩ := Option.map_eq_some_iff.1 found
          cases same
          obtain ⟨parts, digits⟩ := headerTail?_bind_eq_some_iff.1 isTail
          refine ⟨⟨[c], List.cons_ne_nil _ _, rfl⟩, ?_, digits, fun holds => ?_⟩
          · rw [parts, List.cons_append]
          · refine located?_eq_none_iff.1 later ?_
            have ends : rest.tail =
                ("java:".toList ++ tail.digits ++ (": ".toList ++ locatedMark tail.severity)) ++
                  tail.message := by
              rw [parts]
              simp [sourceEnd, HeaderTail.text]
            rw [ends]
            exact holdsPosition_append _ holds

/-- Whether a line is a header of a message with some severity: it has the name of a source
file with a position in front, or begins with the severity. -/
inductive IsHeader : Severity → List Char → Prop where
  | located {stem : List Char} {tail : HeaderTail} (named : stem ≠ [])
      (digits : AreDigits tail.digits) (last : ¬ HoldsPosition tail.message) :
      IsHeader tail.severity (stem ++ sourceEnd ++ tail.text)
  | general {severity : Severity} {message : List Char} (last : ¬ HoldsPosition message) :
      IsHeader severity (generalMark severity ++ message)

/-- What a visible line is for. -/
inductive Role where
  | located (source : List Char) (tail : HeaderTail)
  | general (severity : Severity) (message : List Char)
  | count
  | echo
  | caret
  | detail
  | unparsed

namespace Role

def opened? : Role → Option Diagnostic
  | located source tail =>
      some (.located tail.severity (String.ofList tail.message) ⟨String.ofList source⟩
        (lineNumber tail.digits))
  | general severity message => some (.general severity (String.ofList message))
  | _ => none

/-- Whether a line of this role goes on with a message. -/
def isPart : Role → Bool
  | echo | caret | detail => true
  | _ => false

/-- Whether a line of details may come after a line of this role. -/
def TakesDetails : Role → Prop
  | general _ _ | echo | caret | detail => True
  | _ => False

def next? : Role → Option Part
  | located _ _ => some .source
  | echo => some .caret
  | general _ _ | caret | detail => some .detail
  | count | unparsed => none

end Role

def IsIndented (line : List Char) : Prop :=
  ∃ blank rest, Unicode.isBlank blank = true ∧ line = blank :: rest

/-- The role of a line after a line with a role, or after none. -/
inductive HasRole (previous : Option Role) : List Char → Role → Prop where
  | located {source : List Char} {tail : HeaderTail}
      (named : ∃ stem, stem ≠ [] ∧ source = stem ++ sourceEnd) (digits : AreDigits tail.digits)
      (last : ¬ HoldsPosition tail.message) :
      HasRole previous (source ++ tail.text) (.located source tail)
  | general {severity : Severity} {message : List Char} (last : ¬ HoldsPosition message) :
      HasRole previous (generalMark severity ++ message) (.general severity message)
  | count {line : List Char} (counts : IsCount line) : HasRole previous line .count
  | echo {line : List Char} (unmatched : IsUnmatched line)
      (after : ∃ source tail, previous = some (.located source tail)) :
      HasRole previous line .echo
  | caret {line : List Char} (isCaret : IsCaret line) (after : previous = some .echo) :
      HasRole previous line .caret
  | detail {line : List Char} (unmatched : IsUnmatched line) (indented : IsIndented line)
      (after : ∃ role ∈ previous, role.TakesDetails)
      (unmarked : previous = some .echo → ¬ IsCaret line) : HasRole previous line .detail
  | unparsed {line : List Char} (unmatched : IsUnmatched line)
      (noEcho : ∀ source tail, previous ≠ some (.located source tail))
      (noCaret : previous = some .echo → ¬ IsCaret line)
      (noDetail : ∀ role ∈ previous, role.TakesDetails → ¬ IsIndented line) :
      HasRole previous line .unparsed

/-- Whether lines have roles, the first of them after a line with a role, or after none. -/
def Classified : Option Role → List (List Char × Role) → Prop
  | _, [] => True
  | previous, (line, role) :: entries =>
      HasRole previous line role ∧ Classified (some role) entries

theorem isIndented_iff {line : List Char} :
    (line.head?.map Unicode.isBlank).getD false = true ↔ IsIndented line := by
  cases line with
  | nil =>
      constructor
      · intro indented
        cases indented
      · rintro ⟨blank, rest, -, parts⟩
        cases parts
  | cons c rest =>
      constructor
      · exact fun indented => ⟨c, rest, indented, rfl⟩
      · rintro ⟨blank, others, isBlank, parts⟩
        rw [(List.cons.inj parts).1]
        exact isBlank

/-- The role of a line inside a message, where no caret is expected. -/
def detailRole (line : List Char) : Role :=
  if (line.head?.map Unicode.isBlank).getD false then .detail else .unparsed

def plainRole (previous : Option Role) (line : List Char) : Role :=
  match previous with
  | some (.located _ _) => .echo
  | some .echo => if Text.trim line = ['^'] then .caret else detailRole line
  | some (.general _ _) | some .caret | some .detail => detailRole line
  | some .count | some .unparsed | none => .unparsed

def roleAfter (previous : Option Role) (line : List Char) : Role :=
  match located? line with
  | some (source, tail) => .located source tail
  | none =>
      match dropWord? generalWords line with
      | some (severity, message) => .general severity message
      | none => if isSummary line then .count else plainRole previous line

theorem detailRole_of_isIndented {line : List Char} (indented : IsIndented line) :
    detailRole line = .detail :=
  if_pos (isIndented_iff.2 indented)

theorem detailRole_of_not_isIndented {line : List Char} (flush : ¬ IsIndented line) :
    detailRole line = .unparsed :=
  if_neg fun indented => flush (isIndented_iff.1 indented)

section Line

variable {previous : Option Role} {line : List Char} {role : Role}

theorem roleAfter_of_count (counts : IsCount line) : roleAfter previous line = .count := by
  obtain ⟨notLocated, notGeneral⟩ := counts.not_header
  rw [roleAfter, notLocated, notGeneral, isSummary_eq_true_iff.2 counts]
  rfl

theorem roleAfter_of_isUnmatched (unmatched : IsUnmatched line) :
    roleAfter previous line = plainRole previous line := by
  obtain ⟨notLocated, notGeneral, notSummary⟩ := unmatched.not_matched
  rw [roleAfter, notLocated, notGeneral, notSummary]
  rfl

/-- A line has one role only. -/
theorem HasRole.roleAfter_eq (has : HasRole previous line role) :
    roleAfter previous line = role := by
  cases has with
  | located named digits last =>
      obtain ⟨stem, nonempty, rfl⟩ := named
      rw [roleAfter, List.append_assoc, located?_header nonempty digits last]
  | general last =>
      rw [roleAfter, located?_generalMark last, dropWord?_generalWords_iff.2 rfl]
  | count counts =>
      exact roleAfter_of_count counts
  | echo unmatched after =>
      obtain ⟨source, tail, rfl⟩ := after
      exact roleAfter_of_isUnmatched unmatched
  | caret isCaret after =>
      rw [roleAfter_of_isUnmatched (isUnmatched_of_isCaret isCaret), after]
      exact if_pos (trim_eq_caret_iff.2 isCaret)
  | detail unmatched indented after unmarked =>
      obtain ⟨role, isPrevious, takes⟩ := after
      rw [roleAfter_of_isUnmatched unmatched, Option.mem_def.1 isPrevious]
      have isDetail := detailRole_of_isIndented indented
      cases role with
      | general severity message =>
          exact isDetail
      | echo =>
          rw [plainRole, if_neg fun trimmed =>
            unmarked (Option.mem_def.1 isPrevious) (trim_eq_caret_iff.1 trimmed)]
          exact isDetail
      | caret =>
          exact isDetail
      | detail =>
          exact isDetail
      | located _ _ | count | unparsed =>
          exact takes.elim
  | unparsed unmatched noEcho noCaret noDetail =>
      rw [roleAfter_of_isUnmatched unmatched]
      cases previous with
      | none =>
          rfl
      | some role =>
          have flush : role.TakesDetails → detailRole line = .unparsed := fun takes =>
            detailRole_of_not_isIndented (noDetail role rfl takes)
          cases role with
          | located source tail =>
              exact absurd rfl (noEcho source tail)
          | echo =>
              rw [plainRole, if_neg fun trimmed => noCaret rfl (trim_eq_caret_iff.1 trimmed)]
              exact flush trivial
          | general _ _ | caret | detail =>
              exact flush trivial
          | count | unparsed =>
              rfl

theorem hasRole_detailRole (unmatched : IsUnmatched line)
    (after : ∃ role ∈ previous, role.TakesDetails)
    (noEcho : ∀ source tail, previous ≠ some (.located source tail))
    (unmarked : previous = some .echo → ¬ IsCaret line) :
    HasRole previous line (detailRole line) := by
  by_cases indented : IsIndented line
  · rw [detailRole_of_isIndented indented]
    exact .detail unmatched indented after unmarked
  · rw [detailRole_of_not_isIndented indented]
    exact .unparsed unmatched noEcho unmarked fun _ _ _ => indented

theorem hasRole_plainRole (unmatched : IsUnmatched line) :
    HasRole previous line (plainRole previous line) := by
  cases previous with
  | none =>
      exact .unparsed unmatched nofun nofun nofun
  | some role =>
      cases role with
      | located source tail =>
          exact .echo unmatched ⟨source, tail, rfl⟩
      | echo =>
          rw [plainRole]
          split
          · rename_i trimmed
            exact .caret (trim_eq_caret_iff.1 trimmed) rfl
          · rename_i untrimmed
            exact hasRole_detailRole unmatched ⟨_, rfl, trivial⟩ nofun
              fun _ caret => untrimmed (trim_eq_caret_iff.2 caret)
      | general _ _ | caret | detail =>
          exact hasRole_detailRole unmatched ⟨_, rfl, trivial⟩ nofun nofun
      | count | unparsed =>
          refine .unparsed unmatched nofun nofun ?_
          rintro _ ⟨⟩ takes
          exact takes.elim

/-- Every line has a role. -/
theorem hasRole_roleAfter (previous : Option Role) (line : List Char) :
    HasRole previous line (roleAfter previous line) := by
  cases found : located? line with
  | some both =>
      obtain ⟨named, parts, digits, last⟩ := of_located? found
      rw [roleAfter, found]
      exact parts ▸ .located named digits last
  | none =>
      have noPosition := located?_eq_none_iff.1 found
      cases general : dropWord? generalWords line with
      | some both =>
          obtain ⟨severity, message⟩ := both
          have parts := dropWord?_generalWords_iff.1 general
          rw [roleAfter, found, general]
          rw [parts, (tail_generalMark severity message).1] at noPosition
          exact parts ▸ .general fun holds => noPosition (holdsPosition_append _ holds)
      | none =>
          by_cases counts : IsCount line
          · rw [roleAfter_of_count counts]
            exact .count counts
          · have unmatched : IsUnmatched line := by
              refine ⟨noPosition, fun severity message parts => ?_, counts⟩
              rw [dropWord?_generalWords_iff.2 parts] at general
              cases general
            rw [roleAfter_of_isUnmatched unmatched]
            exact hasRole_plainRole unmatched

end Line

/-- Lines with the roles that they have after a line with a role, or after none. -/
def classify : Option Role → List (List Char) → List (List Char × Role)
  | _, [] => []
  | previous, line :: lines =>
      (line, roleAfter previous line) :: classify (some (roleAfter previous line)) lines

theorem map_fst_classify (previous : Option Role) (lines : List (List Char)) :
    (classify previous lines).map Prod.fst = lines := by
  induction lines generalizing previous with
  | nil =>
      rfl
  | cons line lines inductionHypothesis =>
      rw [classify, List.map_cons, inductionHypothesis]

theorem classified_classify (previous : Option Role) (lines : List (List Char)) :
    Classified previous (classify previous lines) := by
  induction lines generalizing previous with
  | nil =>
      trivial
  | cons line lines inductionHypothesis =>
      exact ⟨hasRole_roleAfter previous line, inductionHypothesis _⟩

/-- There is one way only to give lines their roles. -/
theorem Classified.eq_classify {previous : Option Role} {entries : List (List Char × Role)}
    (classified : Classified previous entries) :
    entries = classify previous (entries.map Prod.fst) := by
  induction entries generalizing previous with
  | nil =>
      rfl
  | cons entry entries inductionHypothesis =>
      obtain ⟨line, role⟩ := entry
      obtain ⟨here, later⟩ := classified
      rw [List.map_cons, classify, here.roleAfter_eq, ← inductionHypothesis later]

end AheadOfTime.CompilerOutput
