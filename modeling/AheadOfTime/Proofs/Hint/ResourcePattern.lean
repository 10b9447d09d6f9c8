import AheadOfTime.Proofs.Hint.ResourcePattern.Quoting

/-!
# What the regular expression of a pattern matches

A pattern and its regular expression match the same paths when they have the same parts.
The parts are the same exactly when every text between stars may stand between quotes as
it is; otherwise the expression can not be read as quoted texts and wildcards, or other
characters stand for themselves.
-/

namespace AheadOfTime.ResourcePattern

theorem exists_cons_of_append_cons {c d : Char} {text rest later : List Char}
    (different : d ≠ c) (same : text ++ d :: rest = c :: later) : ∃ front, text = c :: front := by
  cases text with
  | nil =>
      exact absurd (List.cons.inj same).1 different
  | cons first front =>
      exact ⟨front, congrArg (· :: front) (List.cons.inj same).1⟩

/-- A wildcard is read behind what comes before it, unless its star stands for itself. -/
theorem readParts?_anything {text rest : List Char} (noStar : '*' ∉ text) {quoted : Bool}
    {parts : List Part} (read : readParts? quoted (text ++ '.' :: '*' :: rest) = some parts)
    (starsApart : '*' ∉ literals parts) :
    ∃ first others, readParts? quoted text = some first ∧
      readParts? false rest = some others ∧ parts = first ++ .anything :: others := by
  fun_induction readParts? quoted text generalizing parts with
  | case1 text inductionHypothesis =>
      have noStarLater : '*' ∉ text := fun member => noStar (by simp [member])
      exact inductionHypothesis noStarLater read starsApart
  | case2 c text notEnd inductionHypothesis =>
      have noStarLater : '*' ∉ text := fun member => noStar (List.mem_cons_of_mem c member)
      have goesOn : readParts? true (c :: (text ++ '.' :: '*' :: rest)) =
          (readParts? true (text ++ '.' :: '*' :: rest)).map (.char c :: ·) := by
        refine readParts?_true_cons ?_
        rintro ⟨later, isEnd⟩
        obtain ⟨rfl, follows⟩ := List.cons.inj isEnd
        obtain ⟨text, rfl⟩ := exists_cons_of_append_cons (by decide) follows.symm
        exact notEnd text rfl rfl
      rw [List.cons_append, goesOn] at read
      obtain ⟨later, readLater, rfl⟩ := Option.map_eq_some_iff.1 read
      rw [literals_char, List.mem_cons, not_or] at starsApart
      obtain ⟨first, others, readFirst, readOthers, rfl⟩ :=
        inductionHypothesis noStarLater readLater starsApart.2
      exact ⟨.char c :: first, others, by rw [readFirst]; rfl, readOthers, rfl⟩
  | case3 =>
      -- In a quotation the star would stand for itself.
      have dotted : readParts? true ([] ++ '.' :: '*' :: rest) =
          ((readParts? true rest).map (.char '*' :: ·)).map (.char '.' :: ·) := rfl
      rw [dotted] at read
      obtain ⟨later, readLater, rfl⟩ := Option.map_eq_some_iff.1 read
      obtain ⟨last, -, rfl⟩ := Option.map_eq_some_iff.1 readLater
      exact absurd (by simp) starsApart
  | case4 text inductionHypothesis =>
      have noStarLater : '*' ∉ text := fun member => noStar (by simp [member])
      exact inductionHypothesis noStarLater read starsApart
  | case5 text inductionHypothesis =>
      exact absurd (by simp) noStar
  | case6 =>
      obtain ⟨others, readOthers, rfl⟩ := Option.map_eq_some_iff.1 read
      exact ⟨[], others, rfl, readOthers, rfl⟩
  | case7 c text notStart notStar =>
      have refused : readParts? false (c :: (text ++ '.' :: '*' :: rest)) = none := by
        rw [readParts?]
        · rintro later rfl follows
          obtain ⟨text, rfl⟩ := exists_cons_of_append_cons (by decide) follows
          exact notStart text rfl rfl
        · rintro later rfl follows
          obtain ⟨text, rfl⟩ := exists_cons_of_append_cons (by decide) follows
          exact notStar text rfl rfl
      rw [List.cons_append, refused] at read
      cases read

/-- A pattern is a text without stars, or has a first star. -/
theorem induction_on_stars {motive : List Char → Prop}
    (text : ∀ text, '*' ∉ text → motive text)
    (star : ∀ text rest, '*' ∉ text → motive rest → motive (text ++ '*' :: rest))
    (pattern : List Char) : motive pattern := by
  by_cases hasStar : '*' ∈ pattern
  · obtain ⟨front, rest, rfl, noStar⟩ := List.eq_append_cons_of_mem hasStar
    exact star front rest noStar (induction_on_stars text star rest)
  · exact text pattern hasStar
termination_by pattern.length

theorem replaceChar_of_not_mem {target : Char} {text : List Char} (absent : target ∉ text)
    (replacement : List Char) : Text.replaceChar target replacement text = text := by
  induction text with
  | nil =>
      rfl
  | cons c text inductionHypothesis =>
      rw [List.mem_cons, not_or] at absent
      rw [Text.replaceChar, List.flatMap_cons, if_neg (Ne.symm absent.1), ← Text.replaceChar,
        inductionHypothesis absent.2]
      rfl

theorem partsOf_of_not_mem {text : List Char} (noStar : '*' ∉ text) :
    partsOf text = text.map .char := by
  refine List.map_congr_left fun c member => if_neg ?_
  rintro rfl
  exact noStar member

theorem partsOf_append_star {text : List Char} (noStar : '*' ∉ text) (rest : List Char) :
    partsOf (text ++ '*' :: rest) = text.map .char ++ .anything :: partsOf rest := by
  rw [← partsOf_of_not_mem noStar]
  exact List.map_append

theorem toRegex_of_not_mem {text : List Char} (noStar : '*' ∉ text) :
    dropEmptyQuotes (quotedWildcards text) = quotedText text := by
  rw [quotedWildcards, replaceChar_of_not_mem noStar, quotedText]

theorem toRegex_append_star {text : List Char} (noStar : '*' ∉ text) (rest : List Char) :
    dropEmptyQuotes (quotedWildcards (text ++ '*' :: rest)) =
      quotedText text ++ '.' :: '*' :: dropEmptyQuotes (quotedWildcards rest) := by
  have wildcards : quotedWildcards (text ++ '*' :: rest) =
      quoteStart ++ text ++ quoteEnd ++ '.' :: '*' :: quotedWildcards rest := by
    have front := replaceChar_of_not_mem noStar (quoteEnd ++ ['.', '*'] ++ quoteStart)
    rw [Text.replaceChar] at front
    rw [quotedWildcards, Text.replaceChar, List.flatMap_append, front, List.flatMap_cons,
      if_pos rfl, quotedWildcards, Text.replaceChar]
    simp only [List.append_assoc, List.cons_append, List.nil_append]
  have star : dropEmptyQuotes ('*' :: quotedWildcards rest) =
      '*' :: dropEmptyQuotes (quotedWildcards rest) :=
    dropEmptyQuotes_append_cons (by decide) [] (quotedWildcards rest)
  rw [wildcards, dropEmptyQuotes_append_cons (by decide), star, quotedText]

theorem quotable_of_not_mem {text : List Char} (noStar : '*' ∉ text) :
    (∀ part ∈ Text.split '*' text, IsQuotable part) ↔ IsQuotable text := by
  rw [Text.split_of_not_mem noStar, List.forall_mem_singleton]

theorem quotable_append_star {text : List Char} (noStar : '*' ∉ text) (rest : List Char) :
    (∀ part ∈ Text.split '*' (text ++ '*' :: rest), IsQuotable part) ↔
      IsQuotable text ∧ ∀ part ∈ Text.split '*' rest, IsQuotable part := by
  rw [Text.split_append_cons noStar, List.forall_mem_cons]

/-- The regular expression of a pattern whose texts may stand between quotes has the parts
of the pattern. -/
theorem readParts?_toRegex {pattern : List Char}
    (quotable : ∀ part ∈ Text.split '*' pattern, IsQuotable part) :
    readParts? false (dropEmptyQuotes (quotedWildcards pattern)) = some (partsOf pattern) := by
  induction pattern using induction_on_stars with
  | text text noStar =>
      have whole := readParts?_quotedText ((quotable_of_not_mem noStar).1 quotable) []
      rw [List.append_nil, readParts?, Option.map_some, List.append_nil] at whole
      rw [toRegex_of_not_mem noStar, whole, partsOf_of_not_mem noStar]
  | star text rest noStar inductionHypothesis =>
      obtain ⟨quotableText, quotableRest⟩ := (quotable_append_star noStar rest).1 quotable
      rw [toRegex_append_star noStar, readParts?_quotedText quotableText, readParts?,
        inductionHypothesis quotableRest, partsOf_append_star noStar]
      rfl

/-- A regular expression in which no star stands for itself has no more other characters
than its pattern, and as many only if the texts of the pattern may stand between quotes. -/
theorem length_literals_toRegex {pattern : List Char} {parts : List Part}
    (read : readParts? false (dropEmptyQuotes (quotedWildcards pattern)) = some parts)
    (starsApart : '*' ∉ literals parts) :
    (literals parts).length ≤ (literals (partsOf pattern)).length ∧
      ((literals (partsOf pattern)).length ≤ (literals parts).length →
        ∀ part ∈ Text.split '*' pattern, IsQuotable part) := by
  induction pattern using induction_on_stars generalizing parts with
  | text text noStar =>
      rw [toRegex_of_not_mem noStar] at read
      rw [partsOf_of_not_mem noStar, literals_map_char, quotable_of_not_mem noStar]
      exact length_literals_quotedText read
  | star text rest noStar inductionHypothesis =>
      rw [toRegex_append_star noStar] at read
      obtain ⟨first, others, readFirst, readOthers, rfl⟩ :=
        readParts?_anything (star_not_mem_quotedText noStar) read starsApart
      rw [literals_append, literals_anything, List.mem_append, not_or] at starsApart
      obtain ⟨boundFirst, wholeFirst⟩ := length_literals_quotedText readFirst
      obtain ⟨boundOthers, wholeOthers⟩ := inductionHypothesis readOthers starsApart.2
      rw [partsOf_append_star noStar, quotable_append_star noStar]
      simp only [literals_append, literals_anything, literals_map_char, List.length_append]
      refine ⟨by omega, fun enough => ⟨wholeFirst (by omega), wholeOthers (by omega)⟩⟩

/-- A regular expression is written with marks and with characters of its pattern. -/
theorem mem_of_mem_toRegex {pattern : List Char} {c : Char}
    (member : c ∈ dropEmptyQuotes (quotedWildcards pattern)) : c ∈ pattern ∨ c ∈ marks := by
  have written := (dropEmptyQuotes_sublist _).mem member
  have inMarks : ∀ mark : List Char, mark ⊆ marks → c ∈ mark → c ∈ marks :=
    fun _ contained here => contained here
  rw [quotedWildcards, Text.replaceChar, List.mem_append, List.mem_append,
    List.mem_flatMap] at written
  rcases written with (inStart | ⟨d, inPattern, fromChar⟩) | inEnd
  · exact .inr (inMarks quoteStart (by decide) inStart)
  · split at fromChar
    · exact .inr (inMarks (quoteEnd ++ ['.', '*'] ++ quoteStart) (by decide) fromChar)
    · rw [List.mem_singleton.1 fromChar]
      exact .inl inPattern
  · exact .inr (inMarks quoteEnd (by decide) inEnd)

/-- A character of a pattern that is in no mark is in the regular expression. -/
theorem mem_toRegex {pattern : List Char} {c : Char} (unmarked : c ∉ marks)
    (member : c ∈ pattern) : c ∈ dropEmptyQuotes (quotedWildcards pattern) := by
  have notStar : c ≠ '*' := by
    rintro rfl
    exact unmarked (by decide)
  have written : c ∈ quotedWildcards pattern := by
    refine List.mem_append_left _ (List.mem_append_right _ ?_)
    refine List.mem_flatMap.2 ⟨c, member, ?_⟩
    rw [if_neg notStar]
    exact List.mem_singleton_self c
  obtain ⟨front, rest, parts, -⟩ := List.eq_append_cons_of_mem written
  have notEmptied : c ∉ emptyQuotes := fun inQuotes =>
    unmarked ((by decide : emptyQuotes ⊆ marks) inQuotes)
  rw [parts, dropEmptyQuotes_append_cons notEmptied]
  exact List.mem_append_right _ List.mem_cons_self

theorem mem_literals_partsOf {pattern : List Char} {c : Char} :
    c ∈ literals (partsOf pattern) ↔ c ∈ pattern ∧ c ≠ '*' := by
  induction pattern with
  | nil =>
      simp [partsOf, literals]
  | cons d pattern inductionHypothesis =>
      rw [partsOf] at inductionHypothesis ⊢
      rw [List.map_cons]
      split
      · rw [literals_anything, inductionHypothesis]
        grind
      · rw [literals_char, List.mem_cons, inductionHypothesis]
        grind

theorem not_mem_marks {c : Char} (terminator : isLineTerminator c = true) : c ∉ marks :=
  fun inMarks => by
    have plain : marks.all (fun d => !isLineTerminator d) = true := by
      decide
    have unterminated := List.all_eq_true.1 plain c inMarks
    rw [terminator] at unterminated
    cases unterminated

/-- A path without line terminators is matched by no parts that have one. -/
theorem not_matches_of_terminator {free : Char → Prop} {parts : List Part} {path : String}
    {c : Char} (terminator : isLineTerminator c = true) (member : c ∈ literals parts)
    (unbroken : Unbroken path) : ¬ Matches free parts path.toList := by
  intro isMatch
  rw [unbroken c (isMatch.sublist.mem member)] at terminator
  cases terminator

section

variable {pattern : String} {parts : List Part}

theorem toList_toRegex :
    (toRegex pattern).toList = dropEmptyQuotes (quotedWildcards pattern.toList) := by
  rw [toRegex, String.toList_ofList]

/-- No path without line terminators is matched by a pattern that has one, nor by its
regular expression. -/
theorem matches_iff_of_broken (read : readParts? false (toRegex pattern).toList = some parts)
    (broken : ¬ Unbroken pattern) {path : String} (unbroken : Unbroken path) :
    Matches (fun c => isLineTerminator c = false) parts path.toList ↔
      PatternMatches pattern path := by
  simp only [Unbroken, not_forall, Bool.not_eq_false] at broken
  obtain ⟨c, member, terminator⟩ := broken
  have unmarked := not_mem_marks terminator
  have notStar : c ≠ '*' := by
    rintro rfl
    exact unmarked (by decide)
  rw [toList_toRegex] at read
  have inRegex := mem_literals read unmarked (mem_toRegex unmarked member)
  have inPattern := mem_literals_partsOf.2 ⟨member, notStar⟩
  exact iff_of_false (not_matches_of_terminator terminator inRegex unbroken)
    (not_matches_of_terminator terminator inPattern unbroken)

/-- A regular expression that matches the paths of its pattern has its characters, so that
the texts of the pattern may stand between quotes. -/
theorem quotable_of_matches (read : readParts? false (toRegex pattern).toList = some parts)
    (same : ∀ path, Unbroken path →
      (Matches (fun c => isLineTerminator c = false) parts path.toList ↔
        PatternMatches pattern path))
    (unbroken : Unbroken pattern) : Quotable pattern := by
  rw [toList_toRegex] at read
  -- Each is matched by the characters of the other, so these are the same.
  have patternUnbroken : Unbroken (String.ofList (literals (partsOf pattern.toList))) := by
    intro c member
    rw [String.toList_ofList, mem_literals_partsOf] at member
    exact unbroken c member.1
  have regexUnbroken : Unbroken (String.ofList (literals parts)) := by
    intro c member
    rw [String.toList_ofList] at member
    rcases mem_of_mem_toRegex ((literals_sublist read).mem member) with inPattern | inMarks
    · exact unbroken c inPattern
    · rw [← Bool.not_eq_true]
      exact fun terminator => not_mem_marks terminator inMarks
  have regexMatches := (same _ patternUnbroken).2 (by
    rw [PatternMatches, String.toList_ofList]
    exact Matches.literals _)
  have patternMatches := (same _ regexUnbroken).1 (by
    rw [String.toList_ofList]
    exact Matches.literals _)
  rw [String.toList_ofList] at regexMatches
  rw [PatternMatches, String.toList_ofList] at patternMatches
  have sameLiterals := regexMatches.sublist.antisymm patternMatches.sublist
  have starsApart : '*' ∉ literals parts := by
    rw [sameLiterals, mem_literals_partsOf]
    exact fun member => member.2 rfl
  exact (length_literals_toRegex read starsApart).2 (Nat.le_of_eq (by rw [sameLiterals]))

end

/-- The regular expression of a pattern is made of quoted texts and wildcards, and matches
the paths that the pattern matches, exactly if every text between the stars of the pattern
may stand between quotes.  The end of a quotation may not be in such a text, and the start
of one may not end it: the start and the quotation's own end would be taken for a quotation
of nothing.  Only a pattern that has a line terminator, and so matches none of the paths,
is excepted. -/
theorem regexMatches_toRegex_iff (pattern : String) :
    (IsQuoted (toRegex pattern) ∧ ∀ path, Unbroken path →
        (RegexMatches (toRegex pattern) path ↔ PatternMatches pattern path)) ↔
      Quotable pattern ∨ IsQuoted (toRegex pattern) ∧ ¬ Unbroken pattern := by
  have read_iff {parts : List Part}
      (read : readParts? false (toRegex pattern).toList = some parts) (path : String) :
      RegexMatches (toRegex pattern) path ↔
        Matches (fun c => isLineTerminator c = false) parts path.toList := by
    simp [RegexMatches, read]
  constructor
  · rintro ⟨isQuoted, same⟩
    obtain ⟨parts, read⟩ := Option.isSome_iff_exists.1 isQuoted
    by_cases unbroken : Unbroken pattern
    · refine .inl (quotable_of_matches read (fun path pathUnbroken => ?_) unbroken)
      rw [← read_iff read]
      exact same path pathUnbroken
    · exact .inr ⟨isQuoted, unbroken⟩
  · rintro (quotable | ⟨isQuoted, broken⟩)
    · have read : readParts? false (toRegex pattern).toList = some (partsOf pattern.toList) := by
        rw [toList_toRegex]
        exact readParts?_toRegex quotable
      refine ⟨Option.isSome_iff_exists.2 ⟨_, read⟩, fun path unbroken => ?_⟩
      rw [read_iff read]
      exact ⟨fun isMatch => isMatch.of_path fun _ _ => trivial,
        fun isMatch => isMatch.of_path unbroken⟩
    · obtain ⟨parts, read⟩ := Option.isSome_iff_exists.1 isQuoted
      refine ⟨isQuoted, fun path unbroken => ?_⟩
      rw [read_iff read]
      exact matches_iff_of_broken read broken unbroken

/-- A text that ends with the start of a quotation takes the wildcard after it into the
quotes. -/
theorem regex_misses_path :
    Unbroken "docs\\Q1.txt" ∧ PatternMatches "docs\\Q*.txt" "docs\\Q1.txt" ∧
      ¬ RegexMatches (toRegex "docs\\Q*.txt") "docs\\Q1.txt" := by
  have unbroken : "docs\\Q1.txt".toList.all (fun c => !isLineTerminator c) = true := by
    decide
  refine ⟨fun c member => ?_, ?_, ?_⟩
  · exact (Bool.not_eq_true' _).mp (List.all_eq_true.1 unbroken c member)
  · have number : Matches (fun _ => True) [.anything] (['1'] ++ []) :=
      .anything (fun _ _ => trivial) .nil
    exact ((Matches.literals ("docs\\Q".toList.map .char)).append number).append
      (Matches.literals (".txt".toList.map .char))
  · rintro ⟨parts, read, isMatch⟩
    have readAs : readParts? false (toRegex "docs\\Q*.txt").toList =
        some ("docs.*\\Q.txt".toList.map .char) := by
      decide
    rw [readAs, Option.some.injEq] at read
    have characters := isMatch.sublist
    rw [← read, literals_map_char] at characters
    exact absurd characters.length_le (by decide)

end AheadOfTime.ResourcePattern
