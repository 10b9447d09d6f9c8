import AheadOfTime.Identifier
import AheadOfTime.Unicode.Classes

/-!
# Characters of identifiers

An identifier holds no blank, no dot and no line feed, and an identifier that goes
on with parts of identifiers is one again, unless that spells a reserved word.
-/

namespace AheadOfTime

theorem toNat_of_isUpper {c : Char} (upper : c.isUpper = true) :
    0x41 ≤ c.toNat ∧ c.toNat ≤ 0x5A := by
  have bounds : 'A'.val ≤ c.val ∧ c.val ≤ 'Z'.val := of_decide_eq_true upper
  exact ⟨UInt32.le_iff_toNat_le.1 bounds.1, UInt32.le_iff_toNat_le.1 bounds.2⟩

theorem toNat_of_isLower {c : Char} (lower : c.isLower = true) :
    0x61 ≤ c.toNat ∧ c.toNat ≤ 0x7A := by
  have bounds := Bool.and_eq_true_iff.1 lower
  exact ⟨UInt32.le_iff_toNat_le.1 (of_decide_eq_true bounds.1),
    UInt32.le_iff_toNat_le.1 (of_decide_eq_true bounds.2)⟩

theorem toNat_of_isAlpha {c : Char} (letter : c.isAlpha = true) :
    0x41 ≤ c.toNat ∧ c.toNat ≤ 0x7A := by
  rcases Bool.or_eq_true_iff.1 letter with upper | lower
  · have bounds := toNat_of_isUpper upper
    omega
  · have bounds := toNat_of_isLower lower
    omega

theorem toNat_of_isDigit {c : Char} (digit : c.isDigit = true) :
    0x30 ≤ c.toNat ∧ c.toNat ≤ 0x39 :=
  Char.isDigit_iff_toNat.1 digit

theorem isLower_of_isDigit {c : Char} (digit : c.isDigit = true) : c.isLower = false := by
  rw [Bool.eq_false_iff]
  intro lower
  have small := toNat_of_isLower lower
  have bounds := toNat_of_isDigit digit
  omega

namespace Unicode

/-- Whether no code point lies in ranges of both tables. -/
def Ranges.areApart (left right : Ranges) : Bool :=
  left.toList.all fun first =>
    right.toList.all fun second => first.2 < second.1 || second.2 < first.1

theorem Ranges.has_eq_true_iff (ranges : Ranges) (c : Char) :
    ranges.has c = true ↔
      ∃ range ∈ ranges.toList, range.1 ≤ c.toNat ∧ c.toNat ≤ range.2 := by
  simp [Ranges.has, ← Array.any_toList]

theorem Ranges.not_has_of_areApart {left right : Ranges} (apart : left.areApart right = true)
    {c : Char} (inLeft : left.has c = true) : right.has c = false := by
  rw [Bool.eq_false_iff]
  intro inRight
  obtain ⟨first, firstMember, firstBounds⟩ := (left.has_eq_true_iff c).1 inLeft
  obtain ⟨second, secondMember, secondBounds⟩ := (right.has_eq_true_iff c).1 inRight
  have separate := List.all_eq_true.1 apart first firstMember
  have separate := List.all_eq_true.1 separate second secondMember
  simp only [Bool.or_eq_true, decide_eq_true_eq] at separate
  omega

theorem alphabeticRanges_areApart_blankRanges :
    alphabeticRanges.areApart blankRanges = true := by
  decide +kernel

theorem numericRanges_areApart_blankRanges :
    numericRanges.areApart blankRanges = true := by
  decide +kernel

/-- From behind the space up to the next line no character is blank. -/
theorem not_isBlank_of_bounds {c : Char} (low : 0x20 < c.toNat) (high : c.toNat < 0x85) :
    isBlank c = false := by
  rw [Bool.eq_false_iff]
  intro blank
  obtain ⟨range, member, bounds⟩ := (blankRanges.has_eq_true_iff c).1 blank
  have edges : ∀ range ∈ blankRanges.toList, range.2 ≤ 0x20 ∨ 0x85 ≤ range.1 := by
    decide
  have edge := edges range member
  omega

theorem not_isBlank_of_isAlphabetic {c : Char} (letter : isAlphabetic c = true) :
    isBlank c = false := by
  unfold isAlphabetic at letter
  split at letter
  · have bounds := toNat_of_isAlpha letter
    exact not_isBlank_of_bounds (by omega) (by omega)
  · exact Ranges.not_has_of_areApart alphabeticRanges_areApart_blankRanges letter

theorem not_isBlank_of_isNumeric {c : Char} (number : isNumeric c = true) :
    isBlank c = false := by
  unfold isNumeric at number
  split at number
  · have bounds := toNat_of_isDigit number
    exact not_isBlank_of_bounds (by omega) (by omega)
  · exact Ranges.not_has_of_areApart numericRanges_areApart_blankRanges number

end Unicode

theorem not_isBlank_of_isIdentifierPart {c : Char} (part : isIdentifierPart c = true) :
    Unicode.isBlank c = false := by
  simp only [isIdentifierPart, Bool.or_eq_true, beq_iff_eq] at part
  rcases part with ((letter | number) | underscore) | dollar
  · exact Unicode.not_isBlank_of_isAlphabetic letter
  · exact Unicode.not_isBlank_of_isNumeric number
  · rw [underscore]
    exact Unicode.not_isBlank_of_bounds (by decide) (by decide)
  · rw [dollar]
    exact Unicode.not_isBlank_of_bounds (by decide) (by decide)

theorem isIdentifierPart_of_isDigit {c : Char} (digit : c.isDigit = true) :
    isIdentifierPart c = true := by
  have ascii : c.val < 0x80 := by
    rw [UInt32.lt_iff_toNat_lt]
    exact Nat.lt_of_le_of_lt (toNat_of_isDigit digit).2 (by decide)
  simp [isIdentifierPart, Unicode.isNumeric, ascii, digit]

theorem isIdentifierPart_of_shape {text : List Char} (shape : isIdentifierShape text = true)
    {c : Char} (member : c ∈ text) : isIdentifierPart c = true := by
  cases text with
  | nil =>
      cases member
  | cons first rest =>
      simp only [isIdentifierShape, Bool.and_eq_true, List.all_eq_true] at shape
      rcases List.mem_cons.1 member with rfl | later
      · exact isIdentifierStart_isIdentifierPart shape.1
      · exact shape.2 c later

/-- A text of the shape of an identifier keeps it when parts of identifiers follow. -/
theorem isIdentifierShape_append {text tail : List Char}
    (shape : isIdentifierShape text = true)
    (parts : ∀ c ∈ tail, isIdentifierPart c = true) :
    isIdentifierShape (text ++ tail) = true := by
  cases text with
  | nil =>
      cases shape
  | cons first rest =>
      simp only [isIdentifierShape, Bool.and_eq_true, List.all_eq_true, List.cons_append,
        List.mem_append] at shape ⊢
      refine ⟨shape.1, ?_⟩
      rintro c (member | member)
      · exact shape.2 c member
      · exact parts c member

theorem reservedWords_lower :
    (reservedWords.all fun word => word.toList.all Char.isLower) = true := by
  decide +kernel

/-- Reserved words are of small letters, so any other character makes an
identifier. -/
theorem isIdentifier_of_mem {text : List Char} (shape : isIdentifierShape text = true)
    {mark : Char} (member : mark ∈ text) (foreign : mark.isLower = false) :
    isIdentifier (String.ofList text) = true := by
  have free : String.ofList text ∉ reservedWords := by
    intro reserved
    have small := List.all_eq_true.1 reservedWords_lower _ reserved
    have lower := List.all_eq_true.1 small mark (by simpa using member)
    rw [foreign] at lower
    cases lower
  simp [isIdentifier, shape, free]

namespace Identifier

theorem shape (name : Identifier) : isIdentifierShape name.chars = true := by
  have valid := name.valid
  rw [isIdentifier, Bool.and_eq_true] at valid
  exact valid.1

theorem isIdentifierPart_of_mem (name : Identifier) {c : Char} (member : c ∈ name.chars) :
    isIdentifierPart c = true :=
  isIdentifierPart_of_shape name.shape member

theorem chars_ne_nil (name : Identifier) : name.chars ≠ [] := by
  intro empty
  have shape := name.shape
  rw [empty] at shape
  cases shape

theorem dot_not_mem (name : Identifier) : '.' ∉ name.chars := by
  intro member
  exact absurd (name.isIdentifierPart_of_mem member) (by decide)

theorem ofList_chars (name : Identifier) : String.ofList name.chars = name.text :=
  String.ofList_toList

@[ext]
theorem ext {first second : Identifier} (same : first.text = second.text) :
    first = second := by
  cases first
  cases second
  congr

theorem ofString?_text (name : Identifier) : ofString? name.text = some name :=
  ofString?_eq_some_iff.2 rfl

end Identifier

end AheadOfTime
