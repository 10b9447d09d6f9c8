import AheadOfTime.Proofs.Binary64.Shortest
import Mathlib.Data.List.TakeWhile

/-!
# Decimals read back

The digits of the shortest decimal of a number have no zeros around them, and are rounded to the
number again.
-/

namespace AheadOfTime.Binary64

def Decimal.value (decimal : Decimal) : ℚ :=
  Nat.ofDigitChars 10 decimal.digits 0 * 10 ^ (decimal.exponent - decimal.digits.length)

/-- Digits of which the first is not zero. -/
structure Leading (digits : List Char) : Prop where
  each : ∀ c ∈ digits, c.isDigit = true
  first : ∃ c rest, digits = c :: rest ∧ c ≠ '0'

theorem leading_toDigits {value : Nat} (positive : 0 < value) :
    Leading (Nat.toDigits 10 value) where
  each c member := Nat.isDigit_of_mem_toDigits (by decide) (by decide) member
  first := by
    induction value using Nat.strong_induction_on with
    | _ value inductionHypothesis =>
        rw [Nat.toDigits_eq_if (by decide)]
        split_ifs with small
        · have notZero : ∀ digit < 10, 0 < digit → digit.digitChar ≠ '0' := by
            decide
          exact ⟨value.digitChar, [], rfl, notZero value small positive⟩
        · obtain ⟨c, rest, digits, notZero⟩ :=
            inductionHypothesis (value / 10) (by omega) (by omega)
          rw [digits]
          exact ⟨c, _, rfl, notZero⟩

/-- The digits of a number are the significant ones with zeros after them. -/
theorem toDigits_eq_append (value : Nat) :
    ∃ zeros : Nat,
      Nat.toDigits 10 value = significantDigits value ++ List.replicate zeros '0' := by
  refine ⟨((Nat.toDigits 10 value).reverse.takeWhile (· == '0')).length, ?_⟩
  have zeros : (Nat.toDigits 10 value).reverse.takeWhile (· == '0') =
      List.replicate ((Nat.toDigits 10 value).reverse.takeWhile (· == '0')).length '0' := by
    refine List.eq_replicate_iff.2 ⟨rfl, fun c member => ?_⟩
    have isZero := List.mem_takeWhile_imp (p := (· == '0')) member
    exact beq_iff_eq.1 isZero
  have parts := List.takeWhile_append_dropWhile (p := (· == '0'))
    (l := (Nat.toDigits 10 value).reverse)
  rw [significantDigits, ← List.reverse_replicate, ← zeros, ← List.reverse_append, parts,
    List.reverse_reverse]

theorem leading_significantDigits {value : Nat} (positive : 0 < value) :
    Leading (significantDigits value) := by
  obtain ⟨each, c, rest, digits, notZero⟩ := leading_toDigits positive
  obtain ⟨zeros, parts⟩ := toDigits_eq_append value
  rw [parts] at each
  refine ⟨fun c member => each c (List.mem_append_left _ member), ?_⟩
  cases isSignificant : significantDigits value with
  | cons c others =>
      rw [parts, isSignificant] at digits
      obtain ⟨rfl, -⟩ := List.cons.inj digits
      exact ⟨c, others, rfl, notZero⟩
  | nil =>
      rw [parts, isSignificant, List.nil_append] at digits
      refine absurd (List.eq_of_mem_replicate (a := '0') (n := zeros) ?_) notZero
      rw [digits]
      exact List.mem_cons_self

theorem value_significantDigits (value : Nat) (unit : Int) :
    (⟨significantDigits value, unit + (Nat.toDigits 10 value).length⟩ : Decimal).value =
      value * 10 ^ unit := by
  obtain ⟨zeros, parts⟩ := toDigits_eq_append value
  have digits := Nat.ofDigitChars_ten_toDigits (n := value)
  rw [parts, Nat.ofDigitChars_append, Nat.ofDigitChars_replicate_zero] at digits
  rw [Decimal.value, parts, List.length_append, List.length_replicate]
  simp only []
  rw [show unit + ((significantDigits value).length + zeros : Nat) -
    (significantDigits value).length = zeros + unit by push_cast; ring, zpow_add₀ (by norm_num),
    zpow_natCast, ← mul_assoc]
  congr 1
  rw [mul_comm]
  exact_mod_cast digits

section

variable {significand : Nat} {exponent : Int} (positive : 0 < significand)
  (normal : Normal significand exponent) (tieUp : Bool)
include positive normal

theorem leading_shortest : Leading (shortest significand exponent tieUp).digits := by
  obtain ⟨found, unit, foundPositive, -, isShortest⟩ := shortest_eq positive normal tieUp
  rw [isShortest]
  exact leading_significantDigits foundPositive

/-- The shortest decimal is between the midpoints around the number. -/
theorem roundsTo_shortest :
    RoundsTo (shortest significand exponent tieUp).value significand exponent := by
  obtain ⟨found, unit, -, rounds, isShortest⟩ := shortest_eq positive normal tieUp
  rwa [isShortest, value_significantDigits]

end

theorem toDigits_bounds {value : Nat} (positive : 0 < value) :
    10 ^ ((Nat.toDigits 10 value).length - 1) ≤ value ∧
      value < 10 ^ (Nat.toDigits 10 value).length := by
  induction value using Nat.strong_induction_on with
  | _ value inductionHypothesis =>
      rw [Nat.toDigits_eq_if (by decide)]
      split_ifs with small
      · exact ⟨positive, small⟩
      · obtain ⟨low, high⟩ := inductionHypothesis (value / 10) (by omega) (by omega)
        have nonempty := List.length_pos_iff.2 (Nat.toDigits_ne_nil (n := value / 10) (b := 10))
        rw [List.length_append, List.length_singleton, Nat.add_sub_cancel, pow_succ]
        refine ⟨?_, by omega⟩
        obtain ⟨count, isLength⟩ := Nat.exists_eq_add_of_lt nonempty
        rw [isLength, Nat.zero_add] at low ⊢
        rw [pow_succ]
        rw [Nat.add_sub_cancel] at low
        omega

theorem two_pow_le_ten_pow (count : Nat) : (2 : ℚ) ^ (3 * count) ≤ 10 ^ count := by
  rw [pow_mul]
  exact pow_le_pow_left₀ (by positivity) (by norm_num) count

section

variable {significand : Nat} {exponent : Int} (positive : 0 < significand)
  (normal : Normal significand exponent)
include positive normal

theorem RoundsTo.bounds {value : ℚ} (rounds : RoundsTo value significand exponent) :
    (10 : ℚ) ^ (-400 : Int) ≤ value ∧ value < 10 ^ (400 : Int) := by
  have notBelow := normal.notBelow
  have notAbove := normal.notAbove
  rw [leastExponent] at notBelow
  rw [greatestExponent] at notAbove
  have quarter : (0 : ℚ) < 2 ^ (exponent - 2) := by
    positivity
  have small : (significand : ℚ) + 1 ≤ 2 ^ 53 := by
    exact_mod_cast normal.small
  have atLeastOne : (1 : ℚ) ≤ significand := by
    exact_mod_cast positive
  have gap : (lowGap significand exponent : ℚ) ≤ 2 := by
    exact_mod_cast (lowGap_bounds significand exponent).2
  constructor
  · calc (10 : ℚ) ^ (-400 : Int) = (10 ^ 400)⁻¹ := rfl
      _ ≤ (2 ^ (3 * 400))⁻¹ := inv_anti₀ (by positivity) (two_pow_le_ten_pow 400)
      _ = 2 ^ (-1200 : Int) := rfl
      _ ≤ 2 ^ (exponent - 2) := by
          refine zpow_le_zpow_right₀ (by norm_num) ?_
          omega
      _ ≤ (4 * significand - lowGap significand exponent) * 2 ^ (exponent - 2) :=
          le_mul_of_one_le_left quarter.le (by linarith)
      _ ≤ value := rounds.low
  · calc value ≤ (4 * significand + 2) * 2 ^ (exponent - 2) := rounds.high
      _ < 2 ^ 55 * 2 ^ (exponent - 2) := by
          refine mul_lt_mul_of_pos_right ?_ quarter
          linarith
      _ = 2 ^ (55 + (exponent - 2)) := (zpow_add₀ two_ne_zero 55 (exponent - 2)).symm
      _ ≤ 2 ^ (1200 : Int) := by
          refine zpow_le_zpow_right₀ (by norm_num) ?_
          omega
      _ ≤ 10 ^ (400 : Int) := two_pow_le_ten_pow 400

/-- A decimal between the midpoints around a number is read as that number. -/
theorem ofDecimal_eq {digits : Nat} {scale : Int}
    (rounds : RoundsTo (digits * 10 ^ scale) significand exponent) (negative : Bool) :
    ofDecimal negative digits scale = finite negative significand exponent normal := by
  have digitsPositive : 0 < digits :=
    Nat.cast_pos.1 (pos_of_mul_pos_left (rounds.positive positive) (by positivity))
  obtain ⟨low, high⟩ := rounds.bounds positive normal
  obtain ⟨digitsLow, digitsHigh⟩ := toDigits_bounds digitsPositive
  have nonempty := List.length_pos_iff.2 (Nat.toDigits_ne_nil (n := digits) (b := 10))
  rw [ofDecimal]
  generalize (Nat.toDigits 10 digits).length = size at digitsLow digitsHigh nonempty ⊢
  have power : (0 : ℚ) < 10 ^ scale := by
    positivity
  have notSmall : -400 < scale + size := by
    have below : (digits * 10 ^ scale : ℚ) < 10 ^ (scale + size) := by
      rw [zpow_add₀ (by norm_num), zpow_natCast, mul_comm]
      exact mul_lt_mul_of_pos_left (by exact_mod_cast digitsHigh) power
    exact (zpow_lt_zpow_iff_right₀ (by norm_num)).1 (low.trans_lt below)
  have notLarge : scale + size ≤ 400 := by
    have above : (10 : ℚ) ^ (scale + (size - 1 : Nat)) ≤ digits * 10 ^ scale := by
      rw [zpow_add₀ (by norm_num), zpow_natCast, mul_comm]
      exact mul_le_mul_of_nonneg_right (by exact_mod_cast digitsLow) power.le
    have less := (zpow_lt_zpow_iff_right₀ (by norm_num)).1 (above.trans_lt high)
    omega
  have notZero : (decide (digits = 0) || decide (scale + (size : Int) < -400)) = false := by
    rw [Bool.or_eq_false_iff, decide_eq_false_iff_not, decide_eq_false_iff_not]
    exact ⟨digitsPositive.ne', by omega⟩
  have notInfinite : ¬400 < scale + (size : Int) := by
    omega
  change (if (_ || decide (scale + (size : Int) < -400)) = true then _
    else if 400 < scale + (size : Int) then _ else _) = _
  rw [notZero, if_neg Bool.false_ne_true, if_neg notInfinite]
  split_ifs with whole
  · obtain ⟨count, rfl⟩ := Int.eq_ofNat_of_zero_le whole
    refine ofQuotient_eq ?_ one_pos normal ?_ negative
    · exact Nat.mul_pos digitsPositive (Nat.pow_pos (by decide))
    · rw [Int.toNat_natCast, Nat.pow_eq]
      push_cast
      rwa [div_one, ← zpow_natCast]
  · obtain ⟨count, same⟩ := Int.eq_ofNat_of_zero_le (by omega : 0 ≤ -scale)
    refine ofQuotient_eq digitsPositive (Nat.pow_pos (by decide)) normal ?_ negative
    rw [same, Int.toNat_natCast]
    push_cast
    rwa [← zpow_natCast, div_eq_mul_inv, ← zpow_neg, show -(count : Int) = scale by omega]

end

end AheadOfTime.Binary64
