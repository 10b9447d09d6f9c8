import AheadOfTime.Java.Locals
import AheadOfTime.Proofs.Identifier
import AheadOfTime.Proofs.Numbering

/-!
# Local variables are fresh identifiers

Whatever a bean is called, its local variable is an identifier that was not taken
before, and from then on is taken.
-/

namespace AheadOfTime.Java.Locals

theorem ofNat_toNat_of_isNameChar {c : Char} (nameChar : isNameChar c = true) :
    c.toNat < 128 ∧ Char.ofNat c.toNat = c := by
  refine ⟨?_, Char.ofNat_toNat c⟩
  simp only [isNameChar, Char.isAlphanum, Bool.or_eq_true, beq_iff_eq] at nameChar
  rcases nameChar with (letter | digit) | underscore
  · have bounds := toNat_of_isAlpha letter
    omega
  · have bounds := toNat_of_isDigit digit
    omega
  · rw [underscore]
    decide

/-- What is used of the characters that names are made of, checked one by one. -/
theorem nameChars_table :
    ∀ code, code < 128 → isNameChar (Char.ofNat code) = true →
      isNameChar (Char.ofNat code).toLower = true ∧
      isNameChar (Char.ofNat code).toUpper = true ∧
      isIdentifierPart (Char.ofNat code) = true ∧
      ((Char.ofNat code).isDigit = true ∨ isIdentifierStart (Char.ofNat code) = true) := by
  decide +kernel

theorem isNameChar_facts {c : Char} (nameChar : isNameChar c = true) :
    isNameChar c.toLower = true ∧ isNameChar c.toUpper = true ∧
      isIdentifierPart c = true ∧ (c.isDigit = true ∨ isIdentifierStart c = true) := by
  obtain ⟨bound, same⟩ := ofNat_toNat_of_isNameChar nameChar
  have facts := nameChars_table c.toNat bound
  rw [same] at facts
  exact facts nameChar

theorem isNameChar_of_mem_camelCase {started skipped : Bool} {text : List Char} {c : Char}
    (member : c ∈ camelCase started skipped text) : isNameChar c = true := by
  induction text generalizing started skipped with
  | nil =>
      cases member
  | cons first rest inductionHypothesis =>
      rw [camelCase] at member
      split at member
      · rename_i nameChar
        obtain ⟨lower, upper, -, -⟩ := isNameChar_facts nameChar
        rcases List.mem_cons.1 member with rfl | later
        · split
          · exact lower
          · split
            · exact upper
            · exact nameChar
        · exact inductionHypothesis later
      · exact inductionHypothesis member

/-- A text of name characters that does not start with a digit, or stands after
letters, has the shape of an identifier. -/
theorem isIdentifierShape_of_nameChars {first : Char} {rest : List Char}
    (nameChars : ∀ c ∈ first :: rest, isNameChar c = true) (noDigit : first.isDigit = false) :
    isIdentifierShape (first :: rest) = true := by
  have firstFacts := (isNameChar_facts (nameChars first List.mem_cons_self)).2.2.2
  simp only [isIdentifierShape, Bool.and_eq_true, List.all_eq_true]
  refine ⟨firstFacts.resolve_left (by simp [noDigit]), fun c member => ?_⟩
  exact (isNameChar_facts (nameChars c (List.mem_cons_of_mem _ member))).2.2.1

theorem isIdentifier_or_append_bean {text : List Char}
    (shape : isIdentifierShape text = true) :
    isIdentifier
      (if isIdentifier (String.ofList text) then String.ofList text
        else String.ofList text ++ "Bean") = true := by
  split
  · assumption
  · have whole : String.ofList text ++ "Bean" =
        String.ofList (text ++ ['B', 'e', 'a', 'n']) := by
      rw [String.ofList_append]
    -- The capital keeps the name away from the reserved words.
    have marked : 'B' ∈ text ++ ['B', 'e', 'a', 'n'] := by simp
    rw [whole]
    exact isIdentifier_of_mem
      (isIdentifierShape_append shape (List.all_eq_true.1 (by decide))) marked (by decide)

theorem isIdentifier_baseName (bean : String) : isIdentifier (baseName bean) = true := by
  unfold baseName
  split
  · decide
  · rename_i first rest found
    have nameChars : ∀ c ∈ first :: rest, isNameChar c = true := by
      intro c member
      rw [← found] at member
      exact isNameChar_of_mem_camelCase member
    by_cases digit : first.isDigit = true
    · have whole : "bean" ++ String.ofList (first :: rest) =
          String.ofList (['b', 'e', 'a', 'n'] ++ first :: rest) := by
        rw [String.ofList_append]
      simp only [digit, if_true, whole]
      refine isIdentifier_or_append_bean (isIdentifierShape_append (by decide) ?_)
      exact fun c member => (isNameChar_facts (nameChars c member)).2.2.1
    · rw [Bool.not_eq_true] at digit
      simp only [digit, Bool.false_eq_true, if_false]
      exact isIdentifier_or_append_bean (isIdentifierShape_of_nameChars nameChars digit)

theorem isIdentifier_numbered {base : String} (valid : isIdentifier base = true)
    (number : Nat) : isIdentifier (numbered base number) = true := by
  unfold numbered
  split
  · exact valid
  · have shape : isIdentifierShape base.toList = true := by
      rw [isIdentifier, Bool.and_eq_true] at valid
      exact valid.1
    obtain ⟨digit, member⟩ := List.exists_mem_of_ne_nil (toString number).toList
      (by simp)
    have isDigit := Numbering.isDigit_of_mem_toString member
    rw [← String.ofList_toList (s := base ++ toString number), String.toList_append]
    refine isIdentifier_of_mem (isIdentifierShape_append shape fun c inNumber => ?_)
      (List.mem_append_right _ member) (isLower_of_isDigit isDigit)
    exact isIdentifierPart_of_isDigit (Numbering.isDigit_of_mem_toString inNumber)

theorem numbered_injective (base : String) {first second : Nat}
    (same : numbered base (1 + first) = numbered base (1 + second)) : first = second := by
  have longer : ∀ number : Nat, base ≠ base ++ toString number := by
    intro number equal
    have nothing : base ++ "" = base ++ toString number := by
      rw [String.append_empty]
      exact equal
    have empty := (String.append_right_inj base).1 nothing
    exact Numbering.toString_ne_empty number empty.symm
  unfold numbered at same
  by_cases isFirst : 1 + first ≤ 1
  · by_cases isSecond : 1 + second ≤ 1
    · omega
    · rw [if_pos isFirst, if_neg isSecond] at same
      exact absurd same (longer (1 + second))
  · by_cases isSecond : 1 + second ≤ 1
    · rw [if_neg isFirst, if_pos isSecond] at same
      exact absurd same.symm (longer (1 + first))
    · rw [if_neg isFirst, if_neg isSecond] at same
      exact Nat.add_left_cancel
        (Numbering.toString_injective ((String.append_right_inj base).1 same))

theorem firstFree_eq_numbered (taken : List String) (base : String) (tries number : Nat) :
    ∃ chosen, firstFree taken base tries number = numbered base chosen := by
  induction tries generalizing number with
  | zero =>
      exact ⟨number, rfl⟩
  | succ tries inductionHypothesis =>
      rw [firstFree]
      split
      · exact inductionHypothesis (number + 1)
      · exact ⟨number, rfl⟩

theorem firstFree_not_mem {taken : List String} {base : String} {tries number : Nat}
    (free : ∃ offset, offset ≤ tries ∧ numbered base (number + offset) ∉ taken) :
    firstFree taken base tries number ∉ taken := by
  induction tries generalizing number with
  | zero =>
      obtain ⟨offset, bound, free⟩ := free
      rw [Nat.le_zero.1 bound, Nat.add_zero] at free
      exact free
  | succ tries inductionHypothesis =>
      by_cases isTaken : taken.contains (numbered base number) = true
      · rw [firstFree, if_pos isTaken]
        refine inductionHypothesis ?_
        obtain ⟨offset, bound, free⟩ := free
        cases offset with
        | zero =>
            exact absurd (List.contains_iff_mem.1 isTaken) free
        | succ offset =>
            refine ⟨offset, Nat.le_of_succ_le_succ bound, ?_⟩
            rwa [Nat.add_assoc, Nat.add_comm 1 offset]
      · rw [firstFree, if_neg isTaken]
        exact fun member => isTaken (List.contains_iff_mem.2 member)

theorem allocate_fst_not_mem (locals : Locals) (bean : String) :
    (locals.allocate bean).1 ∉ locals.taken :=
  firstFree_not_mem
    (Numbering.exists_free (fun offset => numbered (baseName bean) (1 + offset))
      (fun _ _ same => numbered_injective (baseName bean) same) locals.taken)

theorem isIdentifier_allocate_fst (locals : Locals) (bean : String) :
    isIdentifier (locals.allocate bean).1 = true := by
  obtain ⟨chosen, found⟩ :=
    firstFree_eq_numbered locals.taken (baseName bean) locals.taken.length 1
  rw [allocate, found]
  exact isIdentifier_numbered (isIdentifier_baseName bean) chosen

end AheadOfTime.Java.Locals
