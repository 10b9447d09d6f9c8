import AheadOfTime.Java.Expression
import AheadOfTime.Proofs.Java.Numbers
import Mathlib.Data.Bool.AllAny

/-!
# Literals as constant expressions

The expression of a literal is a constant expression that Java allows, and its value is that of
the literal.
-/

namespace AheadOfTime

namespace Java

def Value.ofLiteral : Literal → Value
  | .boolean value => .boolean value
  | .integer value => .ofInteger (!Literal.isShort value) value.toInt
  | .real value => .double value
  | .text value => .text (encodeUnits value.toList)

namespace Constant

/-- The expression of an integer: a literal, behind a sign if the integer is negative. -/
def ofInteger (value : Int64) : Constant :=
  let magnitude := .integer value.toInt.natAbs !Literal.isShort value
  if value.toInt < 0 then .negative magnitude else magnitude

/-- Source that is read as a constant expression, if what comes after it cannot belong to it. -/
def Spells (source : List Char) (constant : Constant) : Prop :=
  ∃ tokens, Tokenizes source tokens ∧ ofTokens? tokens = some constant

theorem Spells.constant?_eq {source : String} {constant : Constant}
    (spells : Spells source.toList constant) : constant? source = some constant := by
  obtain ⟨tokens, tokenizes, parsed⟩ := spells
  rw [constant?, tokenizes.readTokens?_eq]
  exact parsed

section

variable {chars : List Char} {constant : Constant} (writes : Writes chars constant)
include writes

theorem Writes.ofToken?_eq : ofToken? (.word (encodeUnits chars)) = some constant := by
  obtain ⟨⟨c, rest, begins, digit⟩, ascii, -, number⟩ := writes
  have units : (encodeUnits chars).map Char.ofNat = chars := by
    rw [encodeUnits_of_ascii ascii, List.map_map]
    refine (List.map_congr_left fun c _ => ?_).trans (List.map_id _)
    exact Char.ofNat_toNat c
  have noKeyword : ∀ word : List Char, word.head?.all Char.isDigit = false → chars ≠ word := by
    rintro word letter rfl
    rw [begins, List.head?_cons, Option.all_some, digit] at letter
    cases letter
  rw [ofToken?]
  simp only [units]
  rw [if_neg (noKeyword _ (by decide)), if_neg (noKeyword _ (by decide)), number]

theorem Writes.spells : Spells chars constant := by
  refine ⟨_, writes.tokenizes, ?_⟩
  rw [ofTokens?, parse?, if_neg (by simp), if_neg (by simp), writes.ofToken?_eq]
  rfl

theorem Writes.spells_negative : Spells ('-' :: chars) (.negative constant) := by
  obtain ⟨c, rest, begins, digit⟩ := writes.begins
  have tokenizes := writes.tokenizes
  rw [begins] at tokenizes
  rw [begins]
  refine ⟨_, tokenizes.negated digit, ?_⟩
  rw [ofTokens?, parse?, if_pos rfl, parse?, if_neg (by simp), if_neg (by simp), ← begins,
    writes.ofToken?_eq]
  rfl

end

section

variable {significand : Nat} {exponent : Int} (normal : Binary64.Normal significand exponent)
include normal

/-- A real literal between the midpoints around a number is allowed and is rounded to it. -/
theorem rounded?_eq (positive : 0 < significand) {digits : Nat} {scale : Int}
    (rounds : Binary64.RoundsTo (digits * 10 ^ scale) significand exponent) :
    rounded? digits scale = some (.finite false significand exponent normal) := by
  rw [rounded?, Binary64.ofDecimal_eq positive normal rounds]
  have notZero : Binary64.isZero (.finite false significand exponent normal) = false :=
    beq_eq_false_iff_ne.2 positive.ne'
  simp [Binary64.isInfinite, notZero]

/-- A magnitude other than zero is written as a real literal that is rounded to it. -/
theorem writes_magnitude (positive : 0 < significand) :
    ∃ digits scale,
      Writes (Literal.fullLayout.magnitude significand exponent) (.real digits scale) ∧
      rounded? digits scale = some (.finite false significand exponent normal) := by
  have leading := Binary64.leading_shortest positive normal Literal.fullLayout.tieUp
  have rounds := Binary64.roundsTo_shortest positive normal Literal.fullLayout.tieUp
  rw [Binary64.Layout.magnitude]
  split_ifs
  · obtain ⟨digits, scale, writes, same⟩ := writes_scientific leading
    exact ⟨digits, scale, writes, rounded?_eq normal positive (same ▸ rounds)⟩
  · obtain ⟨digits, scale, writes, same⟩ := writes_plain leading
    exact ⟨digits, scale, writes, rounded?_eq normal positive (same ▸ rounds)⟩

omit normal in
theorem writes_zero : Writes ['0', '.', '0'] (.real 0 (-1)) :=
  writes_point (digits_singleton (c := '0') rfl) (digits_singleton (c := '0') rfl)

theorem spells_finite (negative : Bool) :
    ∃ constant,
      Spells (realLiteral (.finite negative significand exponent normal)).toList constant ∧
      constant.value? = some (.double (.finite negative significand exponent normal)) := by
  obtain ⟨digits, scale, writes, rounded⟩ : ∃ digits scale,
      Writes (if significand = 0 then ['0', '.', '0']
        else Literal.fullLayout.magnitude significand exponent) (.real digits scale) ∧
      rounded? digits scale = some (.finite false significand exponent normal) := by
    split_ifs with zero
    · refine ⟨0, -1, writes_zero, ?_⟩
      subst zero
      obtain rfl := normal.full.resolve_right (by decide)
      rfl
    · exact writes_magnitude normal (Nat.pos_of_ne_zero zero)
  rw [realLiteral, Binary64.Layout.write, String.toList_ofList]
  cases negative with
  | false =>
      refine ⟨_, writes.spells, ?_⟩
      rw [value?, rounded]
      rfl
  | true =>
      refine ⟨_, writes.spells_negative, ?_⟩
      rw [value?, value?, rounded]
      · rfl
      · intro magnitude long same
        cases same

end

/-- A quotient between parentheses. -/
theorem tokenizes_quotient {above below : List Char} {aboveTokens belowTokens : List Token}
    (aboveTokenizes : Tokenizes above aboveTokens) (belowTokenizes : Tokenizes below belowTokens) :
    Tokenizes ('(' :: (above ++ ' ' :: '/' :: ' ' :: below) ++ [')'])
      (.mark '('.toNat :: (aboveTokens ++ .mark '/'.toNat :: belowTokens) ++
        [.mark ')'.toNat]) := by
  have divided := belowTokenizes.operator (by decide : '/' ∈ ['=', '/'])
  exact (aboveTokenizes.append_blank divided).opened.append_separator (by decide)

/-- A real number is written as a real literal if it is finite. Else it is the quotient of two of
them, the first with the mark of its type. -/
theorem spells_real (value : Binary64) :
    ∃ constant, Spells (realLiteral value).toList constant ∧
      constant.value? = some (.double value) := by
  have zero := writes_zero.tokenizes
  have marked (digit : Char) (isDigit : digit.isDigit = true) :
      Tokenizes [digit, '.', '0', 'd'] [.word (encodeUnits [digit, '.', '0', 'd'])] := by
    refine tokenizes_of_ascii (List.cons_ne_nil _ _) (List.forall_mem_cons.2 ⟨?_, ?_⟩)
    · exact digit_or_point (.inl isDigit)
    · exact List.all_iff_forall_prop.1 (by decide)
  cases value with
  | nan =>
      have quotient := tokenizes_quotient (marked '0' rfl) zero
      exact ⟨.enclosed (.quotient (.real 0 (-1)) (.real 0 (-1))), ⟨_, quotient, rfl⟩, rfl⟩
  | infinite negative =>
      cases negative with
      | false =>
          have quotient := tokenizes_quotient (marked '1' rfl) zero
          exact ⟨.enclosed (.quotient (.real 10 (-1)) (.real 0 (-1))), ⟨_, quotient, rfl⟩, rfl⟩
      | true =>
          have negated := (marked '1' rfl).negated rfl
          have quotient := tokenizes_quotient negated zero
          exact ⟨.enclosed (.quotient (.negative (.real 10 (-1))) (.real 0 (-1))),
            ⟨_, quotient, rfl⟩, rfl⟩
  | finite negative significand exponent normal =>
      exact spells_finite normal negative

theorem spells_boolean (value : Bool) :
    Spells (Java.literal (.boolean value)).toList (.boolean value) := by
  cases value with
  | true | false =>
      exact ⟨_, tokenizes_of_ascii (by decide) (List.all_iff_forall_prop.1 (by decide)), rfl⟩

theorem spells_text (value : String) :
    Spells (Java.literal (.text value)).toList (.text (encodeUnits value.toList)) :=
  ⟨_, .stringLiteral value, rfl⟩

theorem writes_magnitude_integer (value : Int64) :
    Writes (Nat.toDigits 10 value.toInt.natAbs ++ if Literal.isShort value then [] else ['L'])
      (.integer value.toInt.natAbs !Literal.isShort value) := by
  cases Literal.isShort value with
  | true =>
      rw [if_pos rfl, List.append_nil]
      exact writes_integer _
  | false =>
      exact writes_long _

theorem spells_integer (value : Int64) :
    Spells (Java.literal (.integer value)).toList (ofInteger value) := by
  have writes := writes_magnitude_integer value
  have written : (Java.literal (.integer value)).toList =
      (if value.toInt < 0 then ['-'] else []) ++
        (Nat.toDigits 10 value.toInt.natAbs ++
          if Literal.isShort value then [] else ['L']) := by
    rw [Java.literal, ← List.append_assoc, ← toList_toString]
    split_ifs
    · exact (List.append_nil _).symm
    · exact String.toList_append
  rw [written, ofInteger]
  by_cases negative : value.toInt < 0
  · rw [if_pos negative, if_pos negative]
    exact writes.spells_negative
  · rw [if_neg negative, if_neg negative]
    exact writes.spells

theorem value?_ofInteger (value : Int64) :
    (ofInteger value).value? = some (Value.ofLiteral (.integer value)) := by
  have low : -2 ^ 63 ≤ value.toInt := value.le_toInt
  have high : value.toInt < 2 ^ 63 := value.toInt_lt
  have bound : value.toInt.natAbs ≤ ConstantType.integerBound (!Literal.isShort value) ∧
      (0 ≤ value.toInt →
        value.toInt.natAbs < ConstantType.integerBound (!Literal.isShort value)) := by
    cases short : Literal.isShort value with
    | false =>
        change value.toInt.natAbs ≤ 2 ^ 63 ∧ (0 ≤ value.toInt → value.toInt.natAbs < 2 ^ 63)
        omega
    | true =>
        rw [Literal.isShort, Bool.and_eq_true, decide_eq_true_eq, decide_eq_true_eq] at short
        have shortLow : -2 ^ 31 ≤ value.toInt := short.1
        have shortHigh : value.toInt ≤ 2 ^ 31 - 1 := short.2
        change value.toInt.natAbs ≤ 2 ^ 31 ∧ (0 ≤ value.toInt → value.toInt.natAbs < 2 ^ 31)
        omega
  rw [ofInteger, Value.ofLiteral]
  split_ifs with negative
  · rw [value?, if_pos bound.1]
    congr 2
    omega
  · rw [value?, if_pos (bound.2 (by omega))]
    congr 2
    omega

/-- The expression of a literal is a constant expression with its value. -/
theorem spells_literal (value : Literal) :
    ∃ constant, Spells (Java.literal value).toList constant ∧
      constant.value? = some (.ofLiteral value) := by
  cases value with
  | boolean value =>
      exact ⟨_, spells_boolean value, rfl⟩
  | integer value =>
      exact ⟨_, spells_integer value, value?_ofInteger value⟩
  | real value =>
      exact spells_real value
  | text value =>
      exact ⟨_, spells_text value, rfl⟩

end Constant

namespace Value

/-- The expression of a literal has the type of the literal. -/
theorem type_ofLiteral (value : Literal) : (ofLiteral value).type.name = value.type := by
  cases value with
  | boolean _ | real _ | text _ =>
      rfl
  | integer value =>
      rw [ofLiteral, type_ofInteger, Literal.type]
      cases Literal.isShort value <;> rfl

def whole? : Value → Option Int
  | .int value => some value.toInt
  | .long value => some value.toInt
  | .boolean _ | .double _ | .text _ => none

/-- The expression of an integer denotes the same number. -/
theorem whole?_ofLiteral (value : Int64) :
    whole? (.ofLiteral (.integer value)) = some value.toInt := by
  rw [ofLiteral]
  cases short : Literal.isShort value with
  | false =>
      exact congrArg (fun same : Int64 => some same.toInt) (Int64.ofInt_toInt value)
  | true =>
      rw [Literal.isShort, Bool.and_eq_true, decide_eq_true_eq, decide_eq_true_eq] at short
      have shortLow : -2 ^ 31 ≤ value.toInt := short.1
      have shortHigh : value.toInt ≤ 2 ^ 31 - 1 := short.2
      exact congrArg some (Int32.toInt_ofInt_of_le shortLow (by omega))

theorem ofLiteral_injective : Function.Injective ofLiteral := by
  intro first second same
  have sameWhole := congrArg whole? same
  cases first with
  | integer first =>
      rw [whole?_ofLiteral] at sameWhole
      cases second with
      | integer second =>
          rw [whole?_ofLiteral] at sameWhole
          exact congrArg Literal.integer (Int64.toInt_inj.1 (Option.some.inj sameWhole))
      | boolean _ | real _ | text _ =>
          cases sameWhole
  | boolean first | real first =>
      cases second with
      | integer second =>
          rw [whole?_ofLiteral] at sameWhole
          cases sameWhole
      | boolean second | real second | text second =>
          cases same <;> rfl
  | text first =>
      cases second with
      | integer second =>
          rw [whole?_ofLiteral] at sameWhole
          cases sameWhole
      | boolean second | real second =>
          cases same
      | text second =>
          have units : encodeUnits first.toList = encodeUnits second.toList := by
            simpa [ofLiteral] using same
          have chars := congrArg decodeUnits? units
          rw [decodeUnits?_encodeUnits, decodeUnits?_encodeUnits] at chars
          exact congrArg Literal.text (String.toList_injective (Option.some.inj chars))

end Value

end Java

end AheadOfTime
