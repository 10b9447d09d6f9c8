import AheadOfTime.Proofs.Java.Locals

/-!
# Which local variables a compiler accepts

The names of the primitive types and a lone underscore are identifiers here, as parts of
the names of types, but a compiler does not accept them as variables.  A variable is
called by such a word exactly when it is the first of a bean spelled so; any other name
is accepted.
-/

namespace AheadOfTime.Java

/-- The identifiers that a compiler keeps to itself. -/
def keptWords : List String :=
  primitiveNames ++ ["_"]

/-- The texts of ASCII letters, digits and underscores that start with no digit. -/
def isPlainShape : List Char → Bool
  | [] => false
  | first :: rest => (first.isAlpha || first == '_') && rest.all Locals.isNameChar

/-- A name that a compiler accepts for a local variable. -/
structure IsVariableName (name : String) : Prop where
  shape : isPlainShape name.toList = true
  unreserved : name ∉ reservedWords
  unkept : name ∉ keptWords

theorem isPlainShape_append {text tail : List Char} (shape : isPlainShape text = true)
    (nameChars : ∀ c ∈ tail, Locals.isNameChar c = true) :
    isPlainShape (text ++ tail) = true := by
  cases text with
  | nil =>
      cases shape
  | cons first rest =>
      simp only [isPlainShape, Bool.and_eq_true, List.all_eq_true, List.cons_append,
        List.mem_append] at shape ⊢
      refine ⟨shape.1, ?_⟩
      rintro c (member | member)
      · exact shape.2 c member
      · exact nameChars c member

theorem not_mem_reservedWords {name : String} (valid : isIdentifier name = true) :
    name ∉ reservedWords := by
  intro reserved
  rw [isIdentifier, List.contains_iff_mem.2 reserved, Bool.not_true, Bool.and_false] at valid
  cases valid

/-- What sets the words that a compiler keeps to itself apart from the names that are
made for other beans. -/
theorem keptWords_table :
    ∀ word ∈ keptWords, 'B' ∉ word.toList ∧ word.toList.any Char.isDigit = false ∧
      ¬ ['b', 'e', 'a', 'n'] <+: word.toList ∧ isIdentifier word = true ∧
      word ≠ "" := by
  decide +kernel

namespace Locals

theorem isNameChar_of_isDigit {c : Char} (digit : c.isDigit = true) : isNameChar c = true := by
  rw [isNameChar, Char.isAlphanum, digit, Bool.or_true, Bool.true_or]

theorem isPlainShape_of_nameChars {first : Char} {rest : List Char}
    (nameChars : ∀ c ∈ first :: rest, isNameChar c = true) (noDigit : first.isDigit = false) :
    isPlainShape (first :: rest) = true := by
  have start := nameChars first List.mem_cons_self
  rw [isNameChar, Char.isAlphanum, noDigit, Bool.or_false] at start
  rw [isPlainShape, start, Bool.true_and, List.all_eq_true]
  exact fun c member => nameChars c (List.mem_cons_of_mem _ member)

/-- A base name goes on from the usable characters of the bean, or marks them with the
text before or after them. -/
theorem isPlainShape_baseName (bean : String) :
    isPlainShape (baseName bean).toList = true := by
  have marked : ∀ name : String, isPlainShape name.toList = true →
      isPlainShape (if isIdentifier name then name else name ++ "Bean").toList = true := by
    intro name shape
    split
    · exact shape
    · rw [String.toList_append]
      exact isPlainShape_append shape (List.all_eq_true.1 (by decide))
  unfold baseName
  split
  · decide
  · rename_i first rest found
    have nameChars : ∀ c ∈ first :: rest, isNameChar c = true := by
      intro c member
      rw [← found] at member
      exact isNameChar_of_mem_camelCase member
    refine marked _ ?_
    split
    · simp only [String.toList_append, String.toList_ofList]
      exact isPlainShape_append (by decide) nameChars
    · rename_i noDigit
      rw [String.toList_ofList]
      exact isPlainShape_of_nameChars nameChars (Bool.not_eq_true _ ▸ noDigit)

theorem isPlainShape_numbered {base : String} (shape : isPlainShape base.toList = true)
    (number : Nat) : isPlainShape (numbered base number).toList = true := by
  unfold numbered
  split
  · exact shape
  · rw [String.toList_append]
    refine isPlainShape_append shape fun c member => ?_
    exact isNameChar_of_isDigit (Numbering.isDigit_of_mem_toString member)

theorem isPlainShape_allocate_fst (locals : Locals) (bean : String) :
    isPlainShape (locals.allocate bean).1.toList = true := by
  obtain ⟨chosen, found⟩ :=
    firstFree_eq_numbered locals.taken (baseName bean) locals.taken.length 1
  rw [allocate, found]
  exact isPlainShape_numbered (isPlainShape_baseName bean) chosen

def spelled (bean : String) : String :=
  String.ofList (camelCase false false bean.toList)

/-- A name that is made by marking the usable characters is no kept word. -/
theorem baseName_eq_iff {word : String} (kept : word ∈ keptWords) (bean : String) :
    baseName bean = word ↔ spelled bean = word := by
  obtain ⟨noCapital, noDigits, notMarked, valid, nonempty⟩ := keptWords_table word kept
  have unsuffixed : ∀ name : String,
      (if isIdentifier name then name else name ++ "Bean") = word ↔ name = word := by
    intro name
    constructor
    · intro same
      split at same
      · exact same
      · refine absurd ?_ noCapital
        rw [← same, String.toList_append]
        exact List.mem_append_right _ (by decide)
    · rintro rfl
      rw [if_pos valid]
  unfold baseName spelled
  split
  · rename_i found
    rw [found]
    refine ⟨fun same => absurd ?_ notMarked, fun same => absurd same.symm nonempty⟩
    rw [← same]
    decide
  · rename_i first rest found
    rw [found]
    refine (unsuffixed _).trans ?_
    split
    · rename_i digit
      constructor
      · intro same
        refine absurd ?_ notMarked
        rw [← same, String.toList_append]
        exact List.prefix_append _ _
      · intro same
        refine absurd digit (List.any_eq_false.1 noDigits first ?_)
        rw [← same, String.toList_ofList]
        exact List.mem_cons_self
    · rfl

def Unnumbered (text : String) : Prop :=
  ∀ c ∈ text.toList.getLast?, c.isDigit = false

theorem unnumbered_of_kept {word : String} (kept : word ∈ keptWords) : Unnumbered word := by
  intro c isLast
  exact Bool.eq_false_iff.2
    (List.any_eq_false.1 (keptWords_table word kept).2.1 c (List.mem_of_getLast? isLast))

theorem numbered_eq_iff {word : String} (unnumbered : Unnumbered word) {base : String}
    {number : Nat} : numbered base number = word ↔ base = word ∧ number ≤ 1 := by
  unfold numbered
  split
  · rename_i first
    rw [and_iff_left first]
  · rename_i later
    refine ⟨fun same => ?_, fun both => absurd both.2 later⟩
    have nonempty : (toString number).toList ≠ [] := by simp
    have isLast : word.toList.getLast? = some ((toString number).toList.getLast nonempty) := by
      rw [← same, String.toList_append, List.getLast?_append,
        List.getLast?_eq_some_getLast nonempty, Option.some_or]
    have digit := Numbering.isDigit_of_mem_toString (List.getLast_mem nonempty)
    rw [unnumbered _ isLast] at digit
    cases digit

theorem firstFree_of_not_mem {taken : List String} {base : String} (free : base ∉ taken)
    (tries : Nat) : firstFree taken base tries 1 = base := by
  have isFirst : numbered base 1 = base := if_pos (Nat.le_refl 1)
  cases tries with
  | zero =>
      exact isFirst
  | succ tries =>
      have isFree : ¬ taken.contains (numbered base 1) = true := by
        rw [isFirst]
        exact fun member => free (List.contains_iff_mem.1 member)
      rw [firstFree, if_neg isFree, isFirst]

/-- A variable without a number is called by its bean's base name, which is free. -/
theorem allocate_fst_eq_iff {word : String} (unnumbered : Unnumbered word) (locals : Locals)
    (bean : String) :
    (locals.allocate bean).1 = word ↔ baseName bean = word ∧ word ∉ locals.taken := by
  constructor
  · rintro rfl
    refine ⟨?_, locals.allocate_fst_not_mem bean⟩
    obtain ⟨chosen, found⟩ :=
      firstFree_eq_numbered locals.taken (baseName bean) locals.taken.length 1
    exact ((numbered_eq_iff unnumbered).1 found.symm).1
  · rintro ⟨same, free⟩
    rw [allocate, same]
    exact firstFree_of_not_mem free _

/-- Take names for beans in turn. -/
def allocateAll (locals : Locals) : List String → List String × Locals
  | [] => ([], locals)
  | bean :: beans =>
      let (name, locals) := locals.allocate bean
      let (names, locals) := locals.allocateAll beans
      (name :: names, locals)

theorem length_allocateAll (locals : Locals) (beans : List String) :
    (locals.allocateAll beans).1.length = beans.length := by
  induction beans generalizing locals with
  | nil =>
      rfl
  | cons bean rest inductionHypothesis =>
      exact congrArg Nat.succ (inductionHypothesis (locals.allocate bean).2)

theorem allocateAll_append (locals : Locals) (earlier later : List String) :
    (locals.allocateAll (earlier ++ later)).1 =
      (locals.allocateAll earlier).1 ++
        ((locals.allocateAll earlier).2.allocateAll later).1 := by
  induction earlier generalizing locals with
  | nil =>
      rfl
  | cons bean rest inductionHypothesis =>
      exact congrArg (_ :: ·) (inductionHypothesis (locals.allocate bean).2)

theorem mem_taken_allocateAll {name : String} (locals : Locals) (beans : List String) :
    name ∈ (locals.allocateAll beans).2.taken ↔
      name ∈ (locals.allocateAll beans).1 ∨ name ∈ locals.taken := by
  induction beans generalizing locals with
  | nil =>
      simp [allocateAll]
  | cons bean rest inductionHypothesis =>
      refine (inductionHypothesis (locals.allocate bean).2).trans ?_
      have taken : (locals.allocate bean).2.taken =
          (locals.allocate bean).1 :: locals.taken := rfl
      have names : (locals.allocateAll (bean :: rest)).1 =
          (locals.allocate bean).1 :: ((locals.allocate bean).2.allocateAll rest).1 := rfl
      rw [taken, names, List.mem_cons, List.mem_cons, or_left_comm, or_assoc]

/-- A name without a number is taken from the first bean on of which it is the base name. -/
theorem mem_taken_allocateAll_iff {word : String} (unnumbered : Unnumbered word)
    (locals : Locals) (beans : List String) :
    word ∈ (locals.allocateAll beans).2.taken ↔
      word ∈ locals.taken ∨ ∃ bean ∈ beans, baseName bean = word := by
  induction beans generalizing locals with
  | nil =>
      simp [allocateAll]
  | cons bean rest inductionHypothesis =>
      have here : word ∈ (locals.allocate bean).2.taken ↔
          word ∈ locals.taken ∨ baseName bean = word := by
        have taken : (locals.allocate bean).2.taken =
            (locals.allocate bean).1 :: locals.taken := rfl
        rw [taken, List.mem_cons, eq_comm, allocate_fst_eq_iff unnumbered]
        by_cases known : word ∈ locals.taken <;> simp [known]
      refine (inductionHypothesis (locals.allocate bean).2).trans ?_
      simp only [here, List.mem_cons, exists_eq_or_imp, or_assoc]

/-- Of the names that are taken in turn, each is accepted unless its bean is the first to
be spelled as a kept word that was free. -/
theorem isVariableName_allocate_fst_iff (locals : Locals) (earlier : List String)
    (bean : String) :
    IsVariableName ((locals.allocateAll earlier).2.allocate bean).1 ↔
      ¬ (spelled bean ∈ keptWords ∧ spelled bean ∉ locals.taken ∧
        ∀ other ∈ earlier, spelled other ≠ spelled bean) := by
  have shape := (locals.allocateAll earlier).2.isPlainShape_allocate_fst bean
  have unreserved :=
    not_mem_reservedWords ((locals.allocateAll earlier).2.isIdentifier_allocate_fst bean)
  have accepted : IsVariableName ((locals.allocateAll earlier).2.allocate bean).1 ↔
      ((locals.allocateAll earlier).2.allocate bean).1 ∉ keptWords :=
    ⟨IsVariableName.unkept, fun unkept => ⟨shape, unreserved, unkept⟩⟩
  refine accepted.trans (not_congr ?_)
  constructor
  · intro kept
    obtain ⟨based, free⟩ := (allocate_fst_eq_iff (unnumbered_of_kept kept) _ bean).1 rfl
    have same := (baseName_eq_iff kept bean).1 based
    rw [mem_taken_allocateAll_iff (unnumbered_of_kept kept), not_or, ← same] at free
    refine ⟨same ▸ kept, free.1, fun other member equal => free.2 ⟨other, member, ?_⟩⟩
    exact (baseName_eq_iff (same ▸ kept) other).2 equal
  · rintro ⟨kept, free, first⟩
    have chosen := (allocate_fst_eq_iff (unnumbered_of_kept kept)
      (locals.allocateAll earlier).2 bean).2 ⟨(baseName_eq_iff kept bean).2 rfl, fun taken => ?_⟩
    · rwa [chosen]
    · rcases (mem_taken_allocateAll_iff (unnumbered_of_kept kept) locals earlier).1 taken with
        known | other
      · exact free known
      · obtain ⟨other, member, equal⟩ := other
        exact first other member ((baseName_eq_iff kept other).1 equal)

end Locals

end AheadOfTime.Java
