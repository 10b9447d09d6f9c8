import Mathlib.Tactic.SplitIfs
import AheadOfTime.Java.SourceUnit
import AheadOfTime.Proofs.TypeName

/-!
# Plain characters

Identifiers, names of types, numbers and names of setters hold no character that begins
a text, a comment or an escape, or that ends a line, and no brace.
-/

namespace AheadOfTime.Java

/-- A character that stands for itself wherever it is in a line of code, and is no brace. -/
def isPlain (c : Char) : Bool :=
  !(['\n', '\r', '"', '\'', '/', '\\', '\x7b', '\x7d'].contains c)

def Plain (text : String) : Prop :=
  ∀ c ∈ text.toList, isPlain c = true

instance (text : String) : Decidable (Plain text) :=
  List.decidableBAll (fun c => isPlain c = true) text.toList

theorem isPlain_iff {c : Char} :
    isPlain c = true ↔ c ≠ '\n' ∧ c ≠ '\r' ∧ c ≠ '"' ∧ c ≠ '\'' ∧ c ≠ '/' ∧ c ≠ '\\' ∧
      c ≠ '\x7b' ∧ c ≠ '\x7d' := by
  simp [isPlain]

namespace Plain

@[simp]
theorem append_iff (first second : String) :
    Plain (first ++ second) ↔ Plain first ∧ Plain second := by
  simp only [Plain, String.toList_append, List.forall_mem_append]

theorem ofList {text : List Char} (each : ∀ c ∈ text, isPlain c = true) :
    Plain (String.ofList text) := by
  rwa [Plain, String.toList_ofList]

theorem intercalate {separator : String} (between : Plain separator) {texts : List String}
    (each : ∀ text ∈ texts, Plain text) : Plain (separator.intercalate texts) := by
  intro c member
  rw [String.toList_intercalate, Text.intercalate_eq_join] at member
  rcases Text.mem_join member with inSeparator | ⟨part, partMember, inPart⟩
  · exact between c inSeparator
  · obtain ⟨text, textMember, rfl⟩ := List.mem_map.1 partMember
    exact each text textMember c inPart

theorem of_isIdentifierPart {c : Char} (part : isIdentifierPart c = true) :
    isPlain c = true := by
  have marks : (['\n', '\r', '"', '\'', '/', '\\', '\x7b', '\x7d'].all fun mark =>
      !isIdentifierPart mark) = true := by
    decide +kernel
  rw [isPlain, Bool.not_eq_true', Bool.eq_false_iff]
  intro contained
  have noPart := List.all_eq_true.1 marks c (List.contains_iff_mem.1 contained)
  rw [part] at noPart
  cases noPart

theorem of_isIdentifier {text : String} (valid : isIdentifier text = true) : Plain text := by
  intro c member
  rw [isIdentifier, Bool.and_eq_true] at valid
  exact of_isIdentifierPart (isIdentifierPart_of_shape valid.1 member)

theorem dotted (names : List Identifier) : Plain (TypeName.dotted names) := by
  intro c member
  rcases TypeName.isIdentifierPart_of_mem_dotted member with rfl | part
  · decide
  · exact of_isIdentifierPart part

theorem spelling (imports : Imports) (type : TypeName) : Plain (imports.spelling type) := by
  have simple : Plain type.simple.text := of_isIdentifier type.simple.valid
  have canonical : Plain type.canonical := dotted type.segments
  unfold Imports.spelling
  split
  · exact simple
  · split
    · split
      · exact simple
      · exact canonical
    · split
      · exact simple
      · exact canonical

theorem classOf {type : TypeUse} (plain : Plain type.spelling) :
    Plain (Statement.classOf type) :=
  (append_iff _ _).2 ⟨plain, by decide⟩

theorem of_isDigit {c : Char} (digit : c.isDigit = true) : isPlain c = true :=
  of_isIdentifierPart (isIdentifierPart_of_isDigit digit)

theorem of_mem_toDigits {value : Nat} {c : Char} (member : c ∈ Nat.toDigits 10 value) :
    isPlain c = true :=
  of_isDigit (Nat.isDigit_of_mem_toDigits (by decide) (by decide) member)

theorem natural (value : Nat) : Plain (toString value) := by
  intro c member
  rw [Nat.toString_eq_repr, Nat.toList_repr] at member
  exact of_mem_toDigits member

theorem integer (value : Int) : Plain (toString value) := by
  cases value with
  | ofNat value =>
      exact natural value
  | negSucc value =>
      rw [Int.toString_eq_repr]
      change Plain ("-" ++ (value + 1).repr)
      rw [append_iff]
      exact ⟨by decide, natural (value + 1)⟩

theorem of_mem_significantDigits {value : Nat} {c : Char}
    (member : c ∈ Binary64.significantDigits value) : isPlain c = true := by
  rw [Binary64.significantDigits, List.mem_reverse] at member
  have inDigits := (List.dropWhile_sublist _).subset member
  exact of_mem_toDigits (List.mem_reverse.1 inDigits)

theorem of_mem_plain {decimal : Binary64.Decimal}
    (digits : ∀ c ∈ decimal.digits, isPlain c = true) (pointZero : Bool) :
    ∀ c ∈ decimal.plain pointZero, isPlain c = true := by
  have zeros : ∀ count, ∀ c ∈ List.replicate count '0', isPlain c = true := by
    intro count c member
    rw [List.eq_of_mem_replicate member]
    decide
  have front : ∀ count, ∀ c ∈ decimal.digits.take count, isPlain c = true :=
    fun count c member => digits c (List.mem_of_mem_take member)
  have back : ∀ count, ∀ c ∈ decimal.digits.drop count, isPlain c = true :=
    fun count c member => digits c (List.mem_of_mem_drop member)
  have tail : ∀ c ∈ (if pointZero then ['.', '0'] else []), isPlain c = true := by
    apply List.all_eq_true.1
    cases pointZero <;> decide
  simp only [Binary64.Decimal.plain]
  split
  · exact List.forall_mem_append.2
      ⟨List.forall_mem_append.2 ⟨List.all_eq_true.1 (by decide), zeros _⟩, digits⟩
  · split
    · exact List.forall_mem_append.2 ⟨List.forall_mem_append.2 ⟨digits, zeros _⟩, tail⟩
    · exact List.forall_mem_append.2 ⟨front _, List.forall_mem_cons.2 ⟨by decide, back _⟩⟩

theorem of_mem_scientific {decimal : Binary64.Decimal}
    (digits : ∀ c ∈ decimal.digits, isPlain c = true) :
    ∀ c ∈ decimal.scientific, isPlain c = true := by
  have front : ∀ c ∈ decimal.digits.take 1, isPlain c = true :=
    fun c member => digits c (List.mem_of_mem_take member)
  have back : ∀ c ∈ decimal.digits.drop 1, isPlain c = true :=
    fun c member => digits c (List.mem_of_mem_drop member)
  have fraction : ∀ c ∈ (if (decimal.digits.drop 1).isEmpty then []
      else '.' :: decimal.digits.drop 1), isPlain c = true := by
    split_ifs
    · exact List.forall_mem_nil _
    · exact List.forall_mem_cons.2 ⟨by decide, back⟩
  refine List.forall_mem_append.2 ⟨List.forall_mem_append.2 ⟨front, fraction⟩, ?_⟩
  exact List.forall_mem_cons.2 ⟨by decide, integer _⟩

theorem write (layout : Binary64.Layout) (value : Binary64) : Plain (layout.write value) := by
  cases value with
  | nan =>
      exact (by decide : Plain "NaN")
  | infinite negative =>
      cases negative with
      | true =>
          exact (by decide : Plain "-inf")
      | false =>
          exact (by decide : Plain "inf")
  | finite negative significand exponent normal =>
      refine ofList ?_
      have sign : ∀ c ∈ (if negative then ['-'] else []), isPlain c = true := by
        apply List.all_eq_true.1
        cases negative <;> decide
      have zero : ∀ c ∈ (if layout.pointZero then ['.', '0'] else []), isPlain c = true := by
        apply List.all_eq_true.1
        cases layout.pointZero <;> decide
      have digits : ∀ c ∈ (Binary64.shortest significand exponent layout.tieUp).digits,
          isPlain c = true :=
        fun c member => of_mem_significantDigits member
      refine List.forall_mem_append.2 ⟨sign, ?_⟩
      split
      · exact List.forall_mem_cons.2 ⟨by decide, zero⟩
      · simp only [Binary64.Layout.magnitude]
        split_ifs
        · exact of_mem_scientific digits
        · exact of_mem_plain digits _

theorem toUpper_table :
    ∀ code < 0x80, isPlain (Char.ofNat code) = true →
      isPlain (Char.ofNat code).toUpper = true := by
  decide +kernel

theorem expansions_table :
    ∀ entry ∈ Unicode.uppercaseExpansions.toList, ∀ code ∈ entry.2,
      isPlain (Char.ofNat code) = true := by
  decide +kernel

/-- The capitals of a run are none of the characters that are not plain. -/
theorem runs_table :
    ∀ run ∈ Unicode.uppercaseRuns.toList,
      0x2F < (run.1 : Int) + run.2.2.2 ∧
        ((run.2.1 : Int) + run.2.2.2 < 0x5C ∨ 0x7D < (run.1 : Int) + run.2.2.2) := by
  decide +kernel

theorem ofNat {code : Nat} (above : 0x2F < code) (other : code < 0x5C ∨ 0x7D < code) :
    isPlain (Char.ofNat code) = true := by
  by_cases valid : code.isValidChar
  · have made : (Char.ofNat code).toNat = code := by
      rw [show Char.ofNat code = Char.ofNatAux code valid from dif_pos valid]
      rfl
    rw [isPlain_iff]
    refine ⟨?_, ?_, ?_, ?_, ?_, ?_, ?_, ?_⟩
    all_goals
      intro same
      have sameCode := congrArg Char.toNat same
      rw [made] at sameCode
      simp at sameCode
      omega
  · have replaced : Char.ofNat code = '\x00' := dif_neg valid
    rw [replaced]
    decide

theorem of_mem_toUppercase {c : Char} (plain : isPlain c = true) :
    ∀ upper ∈ Unicode.toUppercase c, isPlain upper = true := by
  rw [Unicode.toUppercase]
  split
  · rename_i ascii
    have upper := toUpper_table c.toNat (UInt32.lt_iff_toNat_lt.1 ascii)
    rw [Char.ofNat_toNat] at upper
    exact List.forall_mem_singleton.2 (upper plain)
  · split
    · rename_i entry found
      intro upper member
      obtain ⟨code, isCode, rfl⟩ := List.mem_map.1 member
      exact expansions_table entry (Array.mem_of_find?_eq_some found).val code isCode
    · split
      · rename_i first last stride shift found
        have bounds := runs_table _ (Array.mem_of_find?_eq_some found).val
        have within := Array.find?_some found
        simp only [Bool.and_eq_true, decide_eq_true_eq] at within bounds
        refine List.forall_mem_singleton.2 (ofNat ?_ ?_)
        · omega
        · omega
      · exact List.forall_mem_singleton.2 plain

theorem setterName {property : String} (plain : Plain property) :
    Plain (setterName property) := by
  unfold Java.setterName
  split
  · decide
  · rename_i first rest letters
    rw [Plain, letters] at plain
    obtain ⟨plainFirst, plainRest⟩ := List.forall_mem_cons.1 plain
    refine (append_iff _ _).2 ⟨by decide, ofList ?_⟩
    exact List.forall_mem_append.2 ⟨of_mem_toUppercase plainFirst, plainRest⟩

end Plain

/-- A character of a line of code: a plain one or a brace. -/
def isLineChar (c : Char) : Bool :=
  isPlain c || c == '\x7b' || c == '\x7d'

def CodeLine (text : String) : Prop :=
  ∀ c ∈ text.toList, isLineChar c = true

instance (text : String) : Decidable (CodeLine text) :=
  List.decidableBAll (fun c => isLineChar c = true) text.toList

theorem isLineChar_of_isPlain {c : Char} (plain : isPlain c = true) : isLineChar c = true := by
  rw [isLineChar, plain]
  rfl

theorem isLineChar_iff {c : Char} :
    isLineChar c = true ↔ c ≠ '\n' ∧ c ≠ '\r' ∧ c ≠ '"' ∧ c ≠ '\'' ∧ c ≠ '/' ∧ c ≠ '\\' := by
  rw [isLineChar, Bool.or_eq_true, Bool.or_eq_true, isPlain_iff, beq_iff_eq, beq_iff_eq]
  constructor
  · rintro ((⟨noFeed, noReturn, noQuote, noMark, noSlash, noBackslash, -⟩ | rfl) | rfl)
    · exact ⟨noFeed, noReturn, noQuote, noMark, noSlash, noBackslash⟩
    · decide
    · decide
  · rintro ⟨noFeed, noReturn, noQuote, noMark, noSlash, noBackslash⟩
    by_cases isOpen : c = '\x7b'
    · exact .inl (.inr isOpen)
    · by_cases isClose : c = '\x7d'
      · exact .inr isClose
      · exact .inl (.inl ⟨noFeed, noReturn, noQuote, noMark, noSlash, noBackslash, isOpen,
          isClose⟩)

namespace CodeLine

@[simp]
theorem append_iff (first second : String) :
    CodeLine (first ++ second) ↔ CodeLine first ∧ CodeLine second := by
  simp only [CodeLine, String.toList_append, List.forall_mem_append]

theorem of_plain {text : String} (plain : Plain text) : CodeLine text :=
  fun c member => isLineChar_of_isPlain (plain c member)

end CodeLine

end AheadOfTime.Java
