import AheadOfTime.Hint.Configuration
import Mathlib.Data.List.Infix

/-!
# Texts between quotes

Patterns and regular expressions are read as parts, each a character or a wildcard.  A text
between quotes is read as its characters exactly when it may stand there as it is: otherwise
the quotation ends early, or its marks are dropped as a quotation of nothing.
-/

namespace AheadOfTime.ResourcePattern

/-- A part of a pattern or of a regular expression: a character that stands for itself, or
a wildcard. -/
inductive Part where
  | char (c : Char)
  | anything
  deriving DecidableEq

/-- Whether parts match a path as a whole, when a wildcard stands for any number of the
given characters. -/
inductive Matches (free : Char → Prop) : List Part → List Char → Prop where
  | nil : Matches free [] []
  | char (c : Char) {parts : List Part} {path : List Char} (rest : Matches free parts path) :
      Matches free (.char c :: parts) (c :: path)
  | anything {skipped : List Char} {parts : List Part} {path : List Char}
      (allowed : ∀ c ∈ skipped, free c) (rest : Matches free parts path) :
      Matches free (.anything :: parts) (skipped ++ path)

/-- The characters that stand for themselves. -/
def literals (parts : List Part) : List Char :=
  parts.filterMap fun part =>
    match part with
    | .char c => some c
    | .anything => none

@[simp]
theorem literals_char (c : Char) (parts : List Part) :
    literals (.char c :: parts) = c :: literals parts :=
  rfl

@[simp]
theorem literals_anything (parts : List Part) :
    literals (.anything :: parts) = literals parts :=
  rfl

@[simp]
theorem literals_append (first second : List Part) :
    literals (first ++ second) = literals first ++ literals second :=
  List.filterMap_append

@[simp]
theorem literals_map_char (text : List Char) : literals (text.map .char) = text := by
  induction text with
  | nil =>
      rfl
  | cons c text inductionHypothesis =>
      rw [List.map_cons, literals_char, inductionHypothesis]

namespace Matches

variable {free other : Char → Prop} {parts : List Part} {path : List Char}

/-- Only the characters of the path have to be free. -/
theorem of_path (isMatch : Matches free parts path) (allowed : ∀ c ∈ path, other c) :
    Matches other parts path := by
  induction isMatch with
  | nil =>
      exact .nil
  | char c rest inductionHypothesis =>
      exact .char c (inductionHypothesis (List.forall_mem_cons.1 allowed).2)
  | anything _ rest inductionHypothesis =>
      obtain ⟨skipped, later⟩ := List.forall_mem_append.1 allowed
      exact .anything skipped (inductionHypothesis later)

/-- The wildcards may stand for nothing. -/
theorem literals (parts : List Part) : Matches free parts (literals parts) := by
  induction parts with
  | nil =>
      exact .nil
  | cons part parts inductionHypothesis =>
      cases part with
      | char c =>
          exact .char c inductionHypothesis
      | anything =>
          exact .anything (List.forall_mem_nil _) inductionHypothesis

theorem append {laterParts : List Part} {laterPath : List Char}
    (isMatch : Matches free parts path) (later : Matches free laterParts laterPath) :
    Matches free (parts ++ laterParts) (path ++ laterPath) := by
  induction isMatch with
  | nil =>
      exact later
  | char c rest inductionHypothesis =>
      exact .char c inductionHypothesis
  | anything allowed rest inductionHypothesis =>
      rw [List.append_assoc]
      exact .anything allowed inductionHypothesis

theorem sublist (isMatch : Matches free parts path) :
    (ResourcePattern.literals parts).Sublist path := by
  induction isMatch with
  | nil =>
      exact List.Sublist.refl []
  | char c rest inductionHypothesis =>
      exact inductionHypothesis.cons_cons c
  | anything allowed rest inductionHypothesis =>
      exact inductionHypothesis.trans (List.sublist_append_right _ _)

end Matches

/-- The parts of a pattern: each `*` is a wildcard. -/
def partsOf (pattern : List Char) : List Part :=
  pattern.map fun c => if c = '*' then .anything else .char c

def PatternMatches (pattern path : String) : Prop :=
  Matches (fun _ => True) (partsOf pattern.toList) path.toList

/-- The characters that a dot of a regular expression does not match. -/
def isLineTerminator (c : Char) : Bool :=
  ['\n', '\r', '\u0085', '\u2028', '\u2029'].contains c

def Unbroken (text : String) : Prop :=
  ∀ c ∈ text.toList, isLineTerminator c = false

/-- The parts of a regular expression that is made of quoted texts and of `.*`. A quotation
that is not ended goes on to the end. -/
def readParts? : (quoted : Bool) → List Char → Option (List Part)
  | true, '\\' :: 'E' :: rest => readParts? false rest
  | true, c :: rest => (readParts? true rest).map (.char c :: ·)
  | true, [] => some []
  | false, '\\' :: 'Q' :: rest => readParts? true rest
  | false, '.' :: '*' :: rest => (readParts? false rest).map (.anything :: ·)
  | false, [] => some []
  | false, _ :: _ => none

/-- A regular expression that is made of quoted texts and of `.*`. -/
def IsQuoted (regex : String) : Prop :=
  (readParts? false regex.toList).isSome

/-- Whether a regular expression of quoted texts and `.*` matches a path. -/
def RegexMatches (regex path : String) : Prop :=
  ∃ parts, readParts? false regex.toList = some parts ∧
    Matches (fun c => isLineTerminator c = false) parts path.toList

/-- Whether a text may stand between quotes as it is: the end of the quotation is not in
it, and the start is not its end, where it would make an empty quotation. -/
structure IsQuotable (text : List Char) : Prop where
  noEnd : ¬ quoteEnd <:+: text
  noStart : ¬ quoteStart <:+ text

/-- A pattern whose texts between stars may stand between quotes as they are. -/
def Quotable (pattern : String) : Prop :=
  ∀ text ∈ Text.split '*' pattern.toList, IsQuotable text

section

variable {quoted : Bool} {text rest : List Char} {parts : List Part}

/-- A character that is not written by the rules stands for itself. -/
theorem readParts?_true_cons {c : Char} (inside : ¬ quoteEnd <+: c :: text) :
    readParts? true (c :: text) = (readParts? true text).map (.char c :: ·) := by
  rw [readParts?]
  rintro rest rfl rfl
  exact inside (List.prefix_append quoteEnd rest)

/-- What stands for itself is read. -/
theorem literals_sublist (read : readParts? quoted text = some parts) :
    (literals parts).Sublist text := by
  fun_induction readParts? quoted text generalizing parts with
  | case1 rest inductionHypothesis =>
      exact (inductionHypothesis read).trans (List.sublist_append_right quoteEnd rest)
  | case2 c rest _ inductionHypothesis =>
      obtain ⟨later, readLater, rfl⟩ := Option.map_eq_some_iff.1 read
      exact (inductionHypothesis readLater).cons_cons c
  | case3 =>
      cases read
      exact List.Sublist.refl []
  | case4 rest inductionHypothesis =>
      exact (inductionHypothesis read).trans (List.sublist_append_right quoteStart rest)
  | case5 rest inductionHypothesis =>
      obtain ⟨later, readLater, rfl⟩ := Option.map_eq_some_iff.1 read
      exact (inductionHypothesis readLater).trans (List.sublist_append_right ['.', '*'] rest)
  | case6 =>
      cases read
      exact List.Sublist.refl []
  | case7 =>
      cases read

def marks : List Char :=
  ['\\', 'Q', 'E', '.', '*']

/-- What is read and is in no mark stands for itself. -/
theorem mem_literals (read : readParts? quoted text = some parts) {c : Char}
    (unmarked : c ∉ marks) (member : c ∈ text) : c ∈ literals parts := by
  have others : ∀ mark : List Char, mark ⊆ marks → ∀ rest, c ∈ mark ++ rest → c ∈ rest := by
    intro mark inMarks rest member
    exact (List.mem_append.1 member).resolve_left fun here => unmarked (inMarks here)
  fun_induction readParts? quoted text generalizing parts with
  | case1 rest inductionHypothesis =>
      exact inductionHypothesis read (others quoteEnd (by decide) rest member)
  | case2 d rest _ inductionHypothesis =>
      obtain ⟨later, readLater, rfl⟩ := Option.map_eq_some_iff.1 read
      rcases List.mem_cons.1 member with rfl | inRest
      · exact List.mem_cons_self
      · exact List.mem_cons_of_mem d (inductionHypothesis readLater inRest)
  | case3 =>
      cases member
  | case4 rest inductionHypothesis =>
      exact inductionHypothesis read (others quoteStart (by decide) rest member)
  | case5 rest inductionHypothesis =>
      obtain ⟨later, readLater, rfl⟩ := Option.map_eq_some_iff.1 read
      have inRest := others ['.', '*'] (by decide) rest member
      rw [literals_anything]
      exact inductionHypothesis readLater inRest
  | case6 =>
      cases member
  | case7 =>
      cases read

/-- Outside of quotes, what is read begins with a mark. -/
theorem length_literals_lt (read : readParts? false text = some parts) (nonempty : text ≠ []) :
    (literals parts).length + 2 ≤ text.length := by
  unfold readParts? at read
  split at read
  · cases ‹false = true›
  · cases ‹false = true›
  · cases ‹false = true›
  · exact Nat.add_le_add_right (literals_sublist read).length_le 2
  · obtain ⟨later, readLater, rfl⟩ := Option.map_eq_some_iff.1 read
    exact Nat.add_le_add_right (literals_sublist readLater).length_le 2
  · exact absurd rfl nonempty
  · cases read

end

/-! ## Empty quotations -/

/-- A quotation of nothing. -/
def emptyQuotes : List Char :=
  quoteStart ++ quoteEnd

theorem dropEmptyQuotes_cons {c : Char} {text : List Char}
    (different : ¬ emptyQuotes <+: c :: text) :
    dropEmptyQuotes (c :: text) = c :: dropEmptyQuotes text := by
  rw [dropEmptyQuotes]
  rintro rest rfl rfl
  exact different (List.prefix_append emptyQuotes rest)

/-- A mark at the start of two texts is in the first, or goes on in the second. -/
theorem prefix_append_cases {mark first second : List Char} (isPrefix : mark <+: first ++ second) :
    mark <+: first ∨ ∃ back, back ≠ [] ∧ mark = first ++ back ∧ back <+: second := by
  rcases List.prefix_or_prefix_of_prefix isPrefix (List.prefix_append first second) with
    inFirst | ⟨back, parts⟩
  · exact .inl inFirst
  · rw [← parts, List.prefix_append_right_inj] at isPrefix
    by_cases ended : back = []
    · rw [← parts, ended, List.append_nil]
      exact .inl (List.prefix_refl first)
    · exact .inr ⟨back, ended, parts.symm, isPrefix⟩

/-- What follows a text does not change which empty quotations are dropped from it, as long
as none begins in the text and ends after it. -/
theorem dropEmptyQuotes_append {text rest : List Char}
    (apart : ∀ front back, front ≠ [] → back ≠ [] → emptyQuotes = front ++ back →
      ¬ back <+: rest) :
    dropEmptyQuotes (text ++ rest) = dropEmptyQuotes text ++ dropEmptyQuotes rest := by
  fun_induction dropEmptyQuotes text with
  | case1 text inductionHypothesis =>
      exact inductionHypothesis
  | case2 c text different inductionHypothesis =>
      have unlike : ¬ emptyQuotes <+: c :: text := by
        rintro ⟨later, parts⟩
        obtain ⟨rfl, rest⟩ := List.cons.inj parts
        exact different later rfl rest.symm
      rw [List.cons_append, dropEmptyQuotes_cons, inductionHypothesis, List.cons_append]
      intro isPrefix
      rw [← List.cons_append] at isPrefix
      rcases prefix_append_cases isPrefix with inFirst | straddles
      · exact unlike inFirst
      · obtain ⟨back, nonempty, parts, follows⟩ := straddles
        exact apart (c :: text) back (List.cons_ne_nil c text) nonempty parts follows
  | case3 =>
      rfl

/-- No empty quotation goes on with a character that is in none. -/
theorem dropEmptyQuotes_append_cons {c : Char} (unmarked : c ∉ emptyQuotes)
    (text rest : List Char) :
    dropEmptyQuotes (text ++ c :: rest) = dropEmptyQuotes text ++ c :: dropEmptyQuotes rest := by
  have notBegins : ∀ back, back ≠ [] → (∀ d ∈ back, d ∈ emptyQuotes) → ¬ back <+: c :: rest := by
    rintro back nonempty inMark ⟨later, parts⟩
    obtain ⟨d, others, rfl⟩ := List.exists_cons_of_ne_nil nonempty
    obtain ⟨rfl, -⟩ := List.cons.inj parts
    exact unmarked (inMark d List.mem_cons_self)
  rw [dropEmptyQuotes_append, dropEmptyQuotes_cons]
  · exact notBegins emptyQuotes (List.cons_ne_nil _ _) fun _ member => member
  · intro front back _ nonempty parts
    refine notBegins back nonempty fun d member => ?_
    rw [parts]
    exact List.mem_append_right front member

/-- Empty quotations do not overlap. -/
theorem dropEmptyQuotes_append_emptyQuotes (text : List Char) :
    dropEmptyQuotes (text ++ emptyQuotes) = dropEmptyQuotes text := by
  have apart : ∀ back ∈ emptyQuotes.tails, back ≠ [] → back <+: emptyQuotes →
      back = emptyQuotes := by
    decide
  rw [dropEmptyQuotes_append]
  · exact List.append_nil _
  · intro front back frontNonempty backNonempty parts begins
    have isSuffix : back <:+ emptyQuotes := ⟨front, parts.symm⟩
    have whole := apart back ((List.mem_tails _ _).2 isSuffix) backNonempty begins
    rw [whole] at parts
    exact frontNonempty (List.append_left_eq_self.1 parts.symm)

theorem dropEmptyQuotes_eq_or_length_lt (text : List Char) :
    dropEmptyQuotes text = text ∨ (dropEmptyQuotes text).length + 4 ≤ text.length := by
  fun_induction dropEmptyQuotes text with
  | case1 text inductionHypothesis =>
      refine .inr ?_
      rcases inductionHypothesis with same | shorter
      · rw [same]
        exact Nat.le_refl _
      · simp only [List.length_cons]
        omega
  | case2 c text different inductionHypothesis =>
      rcases inductionHypothesis with same | shorter
      · exact .inl (congrArg (c :: ·) same)
      · refine .inr ?_
        simp only [List.length_cons]
        omega
  | case3 =>
      exact .inl rfl

theorem dropEmptyQuotes_sublist (text : List Char) :
    (dropEmptyQuotes text).Sublist text := by
  fun_induction dropEmptyQuotes text with
  | case1 text inductionHypothesis =>
      exact inductionHypothesis.trans (List.sublist_append_right emptyQuotes text)
  | case2 c text different inductionHypothesis =>
      exact inductionHypothesis.cons_cons c
  | case3 =>
      exact List.Sublist.refl []

def quotedText (text : List Char) : List Char :=
  dropEmptyQuotes (quoteStart ++ text ++ quoteEnd)

/-- The end of a quotation that comes after a text does not begin in it. -/
theorem quoteEnd_begins {c : Char} {text rest : List Char}
    (isPrefix : quoteEnd <+: c :: (text ++ (quoteEnd ++ rest))) : quoteEnd <+: c :: text := by
  rw [← List.cons_append] at isPrefix
  rcases prefix_append_cases isPrefix with inText | ⟨back, nonempty, parts, follows⟩
  · exact inText
  · -- What would come after the text is the letter of the mark.
    obtain ⟨d, others, rfl⟩ := List.exists_cons_of_ne_nil nonempty
    have begins : d = '\\' := (List.cons_prefix_cons.1 follows).1
    have isLetter : d ∈ ['E'] := by
      rw [(List.cons.inj parts).2]
      exact List.mem_append_right text List.mem_cons_self
    rw [begins] at isLetter
    exact absurd isLetter (by decide)

/-- A quotation is read up to its first end. -/
theorem readParts?_quoted {text : List Char} (noEnd : ¬ quoteEnd <:+: text) (rest : List Char) :
    readParts? true (text ++ (quoteEnd ++ rest)) =
      (readParts? false rest).map (text.map .char ++ ·) := by
  induction text with
  | nil =>
      exact Option.map_id'.symm
  | cons c text inductionHypothesis =>
      have inside : ¬ quoteEnd <+: c :: (text ++ (quoteEnd ++ rest)) := fun isPrefix =>
        noEnd (quoteEnd_begins isPrefix).isInfix
      rw [List.cons_append, readParts?_true_cons inside,
        inductionHypothesis fun later => noEnd (List.infix_cons later), Option.map_map]
      rfl

/-- A text with an end of the quotation in it loses characters. -/
theorem length_literals_of_quoteEnd {text : List Char} (hasEnd : quoteEnd <:+: text)
    {parts : List Part} (read : readParts? true (text ++ quoteEnd) = some parts) :
    (literals parts).length < text.length := by
  induction text generalizing parts with
  | nil =>
      exact absurd hasEnd (by decide)
  | cons c text inductionHypothesis =>
      by_cases here : quoteEnd <+: c :: text
      · obtain ⟨later, isText⟩ := here
        rw [← isText] at read ⊢
        have outside : readParts? false (later ++ quoteEnd) = some parts := read
        have bound := length_literals_lt outside (by simp [quoteEnd])
        simp only [quoteEnd, List.length_append, List.length_cons, List.length_nil] at bound ⊢
        omega
      · have inside : ¬ quoteEnd <+: c :: (text ++ (quoteEnd ++ [])) := fun isPrefix =>
          here (quoteEnd_begins isPrefix)
        rw [List.append_nil] at inside
        rw [List.cons_append, readParts?_true_cons inside] at read
        obtain ⟨later, readLater, rfl⟩ := Option.map_eq_some_iff.1 read
        have inRest := (List.infix_cons_iff.1 hasEnd).resolve_left here
        exact Nat.succ_lt_succ (inductionHypothesis inRest readLater)

theorem quotedText_nil : quotedText [] = [] :=
  rfl

theorem star_not_mem_quotedText {text : List Char} (noStar : '*' ∉ text) :
    '*' ∉ quotedText text := by
  intro member
  have inMarks := (dropEmptyQuotes_sublist _).mem member
  simp only [quoteStart, quoteEnd, List.mem_append] at inMarks
  rcases inMarks with (inStart | inText) | inEnd
  · exact absurd inStart (by decide)
  · exact noStar inText
  · exact absurd inEnd (by decide)

theorem IsQuotable.of_cons {c : Char} {text : List Char} (quotable : IsQuotable (c :: text)) :
    IsQuotable text where
  noEnd inText := quotable.noEnd (List.infix_cons inText)
  noStart ends := quotable.noStart (ends.trans (List.suffix_cons c text))

/-- No empty quotation is made of a text that may stand between quotes and of the mark
after it. -/
theorem dropEmptyQuotes_append_quoteEnd {text : List Char} (quotable : IsQuotable text) :
    dropEmptyQuotes (text ++ quoteEnd) = text ++ quoteEnd := by
  have straddling : ∀ back ∈ emptyQuotes.tails, back ≠ [] → back <+: quoteEnd →
      back = quoteEnd := by
    decide
  induction text with
  | nil =>
      rfl
  | cons c text inductionHypothesis =>
      rw [List.cons_append, dropEmptyQuotes_cons, inductionHypothesis quotable.of_cons]
      rw [← List.cons_append]
      intro isPrefix
      rcases prefix_append_cases isPrefix with inText | ⟨back, nonempty, parts, follows⟩
      · have endInMark : quoteEnd <:+: emptyQuotes := (List.suffix_append quoteStart _).isInfix
        exact quotable.noEnd (endInMark.trans inText.isInfix)
      · have isSuffix : back <:+ emptyQuotes := ⟨c :: text, parts.symm⟩
        rw [straddling back ((List.mem_tails _ _).2 isSuffix) nonempty follows] at parts
        rw [List.append_cancel_right parts.symm] at quotable
        exact quotable.noStart (List.suffix_refl quoteStart)

/-- A text that may stand between quotes does so, unless it is empty. -/
theorem quotedText_of_isQuotable {text : List Char} (quotable : IsQuotable text)
    (nonempty : text ≠ []) : quotedText text = quoteStart ++ (text ++ quoteEnd) := by
  have begins : ¬ emptyQuotes <+: quoteStart ++ (text ++ quoteEnd) := by
    rw [emptyQuotes, List.prefix_append_right_inj]
    intro isPrefix
    obtain ⟨c, later, rfl⟩ := List.exists_cons_of_ne_nil nonempty
    have atEnd : quoteEnd <+: c :: (later ++ (quoteEnd ++ [])) := by
      rwa [List.append_nil]
    exact quotable.noEnd (quoteEnd_begins atEnd).isInfix
  have letter : ¬ emptyQuotes <+: 'Q' :: (text ++ quoteEnd) := by
    intro isPrefix
    exact absurd (List.cons_prefix_cons.1 isPrefix).1 (by decide)
  rw [quotedText, List.append_assoc]
  refine (dropEmptyQuotes_cons begins).trans (congrArg _ ?_)
  refine (dropEmptyQuotes_cons letter).trans (congrArg _ ?_)
  exact dropEmptyQuotes_append_quoteEnd quotable

/-- A text that may stand between quotes is read as its characters. -/
theorem readParts?_quotedText {text : List Char} (quotable : IsQuotable text)
    (rest : List Char) :
    readParts? false (quotedText text ++ rest) =
      (readParts? false rest).map (text.map .char ++ ·) := by
  by_cases empty : text = []
  · rw [empty, quotedText_nil]
    exact Option.map_id'.symm
  · rw [quotedText_of_isQuotable quotable empty, List.append_assoc, List.append_assoc]
    exact readParts?_quoted quotable.noEnd rest

/-- A text between quotes that is read has no more characters than there are, and as many
only if it may stand between quotes. -/
theorem length_literals_quotedText {text : List Char} {parts : List Part}
    (read : readParts? false (quotedText text) = some parts) :
    (literals parts).length ≤ text.length ∧
      (text.length ≤ (literals parts).length → IsQuotable text) := by
  have lengths : (quoteStart ++ text ++ quoteEnd).length = text.length + 4 := by
    simp only [quoteStart, quoteEnd, List.length_append, List.length_cons, List.length_nil]
    omega
  rcases dropEmptyQuotes_eq_or_length_lt (quoteStart ++ text ++ quoteEnd) with kept | shorter
  · -- Nothing is dropped, so the quotation is read up to its first end.
    rw [quotedText, kept, List.append_assoc] at read
    have inQuotes : readParts? true (text ++ quoteEnd) = some parts := read
    by_cases hasEnd : quoteEnd <:+: text
    · have lost := length_literals_of_quoteEnd hasEnd inQuotes
      exact ⟨Nat.le_of_lt lost, fun enough => absurd lost (Nat.not_lt.2 enough)⟩
    · have whole := readParts?_quoted hasEnd []
      rw [List.append_nil, inQuotes, readParts?, Option.map_some, List.append_nil,
        Option.some.injEq] at whole
      rw [whole, literals_map_char]
      refine ⟨Nat.le_refl _, fun _ => ⟨hasEnd, fun hasStart => ?_⟩⟩
      obtain ⟨front, rfl⟩ := hasStart
      have empty : quoteStart ++ (front ++ quoteStart) ++ quoteEnd =
          quoteStart ++ front ++ emptyQuotes := by
        simp only [emptyQuotes, List.append_assoc]
      have dropped := dropEmptyQuotes_append_emptyQuotes (quoteStart ++ front)
      rw [← empty, kept] at dropped
      have noLonger := (dropEmptyQuotes_sublist (quoteStart ++ front)).length_le
      rw [← dropped, empty, List.length_append] at noLonger
      exact absurd noLonger (Nat.not_le.2 (Nat.lt_add_of_pos_right (by decide)))
  · change (quotedText text).length + 4 ≤ _ at shorter
    rw [lengths, Nat.add_le_add_iff_right] at shorter
    by_cases empty : quotedText text = []
    · rw [empty] at read
      cases read
      refine ⟨Nat.zero_le _, fun none => ?_⟩
      rw [List.length_eq_zero_iff.1 (Nat.le_zero.1 none)]
      exact ⟨by decide, by decide⟩
    · have bound := length_literals_lt read empty
      exact ⟨by omega, fun enough => by omega⟩

end AheadOfTime.ResourcePattern
