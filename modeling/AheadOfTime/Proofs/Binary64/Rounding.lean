import AheadOfTime.Binary64
import Mathlib.Algebra.Order.Field.Power
import Mathlib.Data.Nat.Log
import Mathlib.Tactic.FieldSimp
import Mathlib.Tactic.Linarith
import Mathlib.Tactic.NormNum
import Mathlib.Tactic.Positivity
import Mathlib.Tactic.Ring

/-!
# Rounding to the nearest number

A quotient between the midpoints around a number of the format is rounded to that number.
The midpoints themselves are when the significand of the number is even.
-/

namespace AheadOfTime.Binary64

/-- The whole number nearest to a quotient is the one that the quotient is within a half of. -/
theorem nearest_eq {numerator denominator whole : Nat} (positive : 0 < denominator)
    (low : (whole : ℚ) - 1 / 2 ≤ numerator / denominator)
    (high : (numerator : ℚ) / denominator ≤ whole + 1 / 2)
    (inside : whole % 2 = 1 →
      (whole : ℚ) - 1 / 2 < numerator / denominator ∧
        (numerator : ℚ) / denominator < whole + 1 / 2) :
    nearest numerator denominator = whole := by
  have positiveRat : (0 : ℚ) < denominator := Nat.cast_pos.2 positive
  rw [le_div_iff₀ positiveRat] at low
  rw [div_le_iff₀ positiveRat] at high
  rw [lt_div_iff₀ positiveRat, div_lt_iff₀ positiveRat] at inside
  have lowNat : 2 * (whole * denominator) ≤ 2 * numerator + denominator := by
    have : (2 * (whole * denominator) : ℚ) ≤ 2 * numerator + denominator := by linarith
    exact_mod_cast this
  have highNat : 2 * numerator ≤ 2 * (whole * denominator) + denominator := by
    have : (2 * numerator : ℚ) ≤ 2 * (whole * denominator) + denominator := by linarith
    exact_mod_cast this
  have insideNat : whole % 2 = 1 →
      2 * (whole * denominator) < 2 * numerator + denominator ∧
        2 * numerator < 2 * (whole * denominator) + denominator := by
    intro odd
    obtain ⟨lowInside, highInside⟩ := inside odd
    constructor
    · have : (2 * (whole * denominator) : ℚ) < 2 * numerator + denominator := by linarith
      exact_mod_cast this
    · have : (2 * numerator : ℚ) < 2 * (whole * denominator) + denominator := by linarith
      exact_mod_cast this
  have division := Nat.div_add_mod' numerator denominator
  have remainder := Nat.mod_lt numerator positive
  have notMore : whole ≤ numerator / denominator + 1 := by
    by_contra more
    have : (numerator / denominator + 2) * denominator ≤ whole * denominator :=
      Nat.mul_le_mul_right _ (by omega)
    rw [Nat.add_mul] at this
    omega
  have notLess : numerator / denominator ≤ whole := by
    by_contra less
    have : (whole + 1) * denominator ≤ numerator / denominator * denominator :=
      Nat.mul_le_mul_right _ (by omega)
    rw [Nat.add_mul] at this
    omega
  rw [nearest]
  obtain same | next : whole = numerator / denominator ∨ whole = numerator / denominator + 1 := by
    omega
  · rw [same] at insideNat highNat
    split_ifs <;> omega
  · rw [next, Nat.add_mul] at insideNat lowNat highNat
    rw [next]
    split_ifs <;> omega

/-- Whether an exponent is the one that leaves 53 bits above it, or the least. -/
structure IsExponent (value : ℚ) (exponent : Int) : Prop where
  notBelow : leastExponent ≤ exponent
  small : value < 2 ^ (exponent + 53)
  full : exponent = leastExponent ∨ 2 ^ (exponent + 52) ≤ value

theorem IsExponent.le {value : ℚ} {exponent other : Int} (first : IsExponent value exponent)
    (second : IsExponent value other) : other ≤ exponent := by
  by_contra less
  have notLeast : other ≠ leastExponent := by
    have := first.notBelow
    omega
  have large := second.full.resolve_left notLeast
  have between := (zpow_lt_zpow_iff_right₀ one_lt_two).1 (large.trans_lt first.small)
  omega

theorem IsExponent.unique {value : ℚ} {exponent other : Int} (first : IsExponent value exponent)
    (second : IsExponent value other) : exponent = other :=
  le_antisymm (second.le first) (first.le second)

section

variable {numerator denominator : Nat}

theorem scaled_positive (positive : 0 < denominator) (exponent : Int) :
    0 < (scaled numerator denominator exponent).2 := by
  rw [scaled]
  split_ifs
  · exact Nat.mul_pos positive (Nat.two_pow_pos _)
  · exact positive

/-- A quotient is scaled by a power of two. -/
theorem scaled_quotient (exponent : Int) :
    ((scaled numerator denominator exponent).1 : ℚ) / (scaled numerator denominator exponent).2 =
      numerator / denominator / 2 ^ exponent := by
  rw [scaled]
  split_ifs with whole
  · obtain ⟨power, rfl⟩ := Int.eq_ofNat_of_zero_le whole
    rw [Int.toNat_natCast, zpow_natCast, div_div, Nat.pow_eq]
    push_cast
    rfl
  · obtain ⟨power, same⟩ := Int.eq_ofNat_of_zero_le (by omega : 0 ≤ -exponent)
    obtain rfl : exponent = -(power : Int) := by omega
    rw [neg_neg, Int.toNat_natCast, zpow_neg, zpow_natCast, div_inv_eq_mul, Nat.pow_eq]
    push_cast
    ring

variable (numeratorPositive : 0 < numerator) (denominatorPositive : 0 < denominator)
include denominatorPositive

theorem scaled_div_lt_iff (exponent : Int) (bits : Nat) :
    (scaled numerator denominator exponent).1 / (scaled numerator denominator exponent).2 <
        2 ^ bits ↔
      (numerator : ℚ) / denominator < 2 ^ (exponent + bits) := by
  have positive : 0 < (scaled numerator denominator exponent).2 :=
    scaled_positive denominatorPositive exponent
  rw [Nat.div_lt_iff_lt_mul positive, zpow_add₀ two_ne_zero, zpow_natCast,
    ← div_lt_iff₀' (by positivity), ← scaled_quotient, div_lt_iff₀ (Nat.cast_pos.2 positive)]
  exact_mod_cast Iff.rfl

include numeratorPositive

/-- A quotient is near the power of two that the sizes of its parts give. -/
theorem quotient_near_power :
    (2 : ℚ) ^ ((numerator.log2 : Int) - denominator.log2 - 1) < numerator / denominator ∧
      (numerator : ℚ) / denominator < 2 ^ ((numerator.log2 : Int) - denominator.log2 + 1) := by
  have above : (2 : ℚ) ^ numerator.log2 ≤ numerator := by
    exact_mod_cast Nat.log2_self_le (by omega)
  have aboveNext : (numerator : ℚ) < 2 ^ (numerator.log2 + 1) := by
    exact_mod_cast Nat.lt_log2_self
  have below : (2 : ℚ) ^ denominator.log2 ≤ denominator := by
    exact_mod_cast Nat.log2_self_le (by omega)
  have belowNext : (denominator : ℚ) < 2 ^ (denominator.log2 + 1) := by
    exact_mod_cast Nat.lt_log2_self
  have positive : (0 : ℚ) < denominator := Nat.cast_pos.2 denominatorPositive
  constructor
  · rw [lt_div_iff₀ positive]
    calc (2 : ℚ) ^ ((numerator.log2 : Int) - denominator.log2 - 1) * denominator
        < 2 ^ ((numerator.log2 : Int) - denominator.log2 - 1) * 2 ^ (denominator.log2 + 1) := by
          gcongr
      _ = 2 ^ numerator.log2 := by
          rw [← zpow_natCast, ← zpow_natCast, ← zpow_add₀ two_ne_zero]
          congr 1
          push_cast
          ring
      _ ≤ numerator := above
  · rw [div_lt_iff₀ positive]
    calc (numerator : ℚ) < 2 ^ (numerator.log2 + 1) := aboveNext
      _ = 2 ^ ((numerator.log2 : Int) - denominator.log2 + 1) * 2 ^ denominator.log2 := by
          rw [← zpow_natCast, ← zpow_natCast, ← zpow_add₀ two_ne_zero]
          congr 1
          push_cast
          ring
      _ ≤ 2 ^ ((numerator.log2 : Int) - denominator.log2 + 1) * denominator := by
          gcongr

theorem isExponent_exponentOf :
    IsExponent (numerator / denominator) (exponentOf numerator denominator) := by
  obtain ⟨near, nearNext⟩ := quotient_near_power numeratorPositive denominatorPositive
  rw [exponentOf]
  simp only []
  generalize isGuess :
    max leastExponent ((numerator.log2 : Int) - denominator.log2 - 53) = guess
  have fits : (scaled numerator denominator guess).1 / (scaled numerator denominator guess).2 <
      Nat.pow 2 53 ↔ (numerator : ℚ) / denominator < 2 ^ (guess + 53) :=
    scaled_div_lt_iff denominatorPositive guess 53
  split_ifs with guessFits
  · refine ⟨by omega, fits.1 guessFits, ?_⟩
    by_cases least : guess = leastExponent
    · exact .inl least
    · refine .inr (le_trans ?_ near.le)
      exact zpow_le_zpow_right₀ one_le_two (by omega)
  · refine ⟨by omega, nearNext.trans_le ?_, .inr ?_⟩
    · exact zpow_le_zpow_right₀ one_le_two (by omega)
    · rw [show guess + 1 + 52 = guess + 53 by ring]
      exact not_lt.1 fun less => guessFits (fits.2 less)

theorem exponentOf_eq {exponent : Int}
    (isExponent : IsExponent (numerator / denominator) exponent) :
    exponentOf numerator denominator = exponent :=
  (isExponent_exponentOf numeratorPositive denominatorPositive).unique isExponent

end

/-- How far the next midpoint below a number is, in quarters of its last place. Below a power of
two the next number is only half as far away. -/
def lowGap (significand : Nat) (exponent : Int) : Nat :=
  if significand = 2 ^ 52 ∧ leastExponent < exponent then 1 else 2

theorem lowGap_bounds (significand : Nat) (exponent : Int) :
    1 ≤ lowGap significand exponent ∧ lowGap significand exponent ≤ 2 := by
  rw [lowGap]
  split_ifs <;> omega

/-- Whether a number is between the midpoints around `significand * 2 ^ exponent`. -/
structure RoundsTo (value : ℚ) (significand : Nat) (exponent : Int) : Prop where
  low : (4 * significand - lowGap significand exponent : ℚ) * 2 ^ (exponent - 2) ≤ value
  high : value ≤ (4 * significand + 2) * 2 ^ (exponent - 2)
  inside : significand % 2 = 1 →
    (4 * significand - lowGap significand exponent : ℚ) * 2 ^ (exponent - 2) < value ∧
      value < (4 * significand + 2) * 2 ^ (exponent - 2)

theorem RoundsTo.positive {value : ℚ} {significand : Nat} {exponent : Int}
    (rounds : RoundsTo value significand exponent) (positive : 0 < significand) : 0 < value := by
  have gap : (lowGap significand exponent : ℚ) ≤ 2 := by
    exact_mod_cast (lowGap_bounds significand exponent).2
  have atLeastOne : (1 : ℚ) ≤ significand := by
    exact_mod_cast positive
  refine lt_of_lt_of_le ?_ rounds.low
  exact mul_pos (by linarith) (by positivity)

theorem zpow_eq_mul_quarter (exponent : Int) (bits : Nat) :
    (2 : ℚ) ^ (exponent + bits) = 2 ^ bits * 4 * 2 ^ (exponent - 2) := by
  rw [show exponent + bits = exponent - 2 + 2 + bits by ring, zpow_add₀ two_ne_zero,
    zpow_add₀ two_ne_zero, zpow_natCast]
  norm_num
  ring

section

variable {numerator denominator significand : Nat} {exponent : Int}
  (numeratorPositive : 0 < numerator) (denominatorPositive : 0 < denominator)
  (normal : Normal significand exponent)
  (rounds : RoundsTo (numerator / denominator) significand exponent)
include numeratorPositive denominatorPositive normal rounds

/-- Just below a power of two the significand is rounded up and carried over. -/
theorem ofQuotient_below_power (negative : Bool) (isPower : significand = 2 ^ 52)
    (notLeast : leastExponent < exponent)
    (below : (numerator : ℚ) / denominator < 2 ^ (exponent + 52)) :
    ofQuotient negative numerator denominator = finite negative significand exponent normal := by
  have quarter : (0 : ℚ) < 2 ^ (exponent - 2) := by
    positivity
  have low := rounds.low
  rw [lowGap, if_pos ⟨isPower, notLeast⟩, isPower] at low
  push_cast at low
  have half : (2 : ℚ) ^ (exponent - 1) = 2 * 2 ^ (exponent - 2) := by
    rw [show exponent - 1 = 1 + (exponent - 2) by ring, zpow_add₀ two_ne_zero]
    rfl
  have isExponent : exponentOf numerator denominator = exponent - 1 := by
    refine exponentOf_eq numeratorPositive denominatorPositive ⟨by omega, ?_, .inr ?_⟩
    · rwa [show exponent - 1 + 53 = exponent + 52 by ring]
    · rw [show exponent - 1 + 52 = exponent + (51 : Nat) by ring, zpow_eq_mul_quarter]
      linarith
  have isNearest : nearest (scaled numerator denominator (exponent - 1)).1
      (scaled numerator denominator (exponent - 1)).2 = 2 ^ 53 := by
    refine nearest_eq (scaled_positive denominatorPositive _) ?_ ?_ (fun odd => by omega)
    · rw [scaled_quotient, half, le_div_iff₀ (by positivity)]
      push_cast
      linarith
    · rw [scaled_quotient, half, div_le_iff₀ (by positivity)]
      rw [show exponent + 52 = exponent + (52 : Nat) by rfl, zpow_eq_mul_quarter] at below
      push_cast
      linarith
  subst isPower
  rw [ofQuotient, if_neg (by omega)]
  simp only [isExponent, isNearest, Nat.pow_eq, if_true, sub_add_cancel]
  rw [dif_pos normal]

/-- A quotient between the midpoints around a number is rounded to it. -/
theorem ofQuotient_eq (negative : Bool) :
    ofQuotient negative numerator denominator = finite negative significand exponent normal := by
  have quarter : (0 : ℚ) < 2 ^ (exponent - 2) := by
    positivity
  have unit : (2 : ℚ) ^ exponent = 4 * 2 ^ (exponent - 2) := by
    have quarters := zpow_eq_mul_quarter exponent 0
    simpa using quarters
  by_cases belowPower : significand = 2 ^ 52 ∧ leastExponent < exponent ∧
      (numerator : ℚ) / denominator < 2 ^ (exponent + 52)
  · obtain ⟨isPower, notLeast, below⟩ := belowPower
    exact ofQuotient_below_power numeratorPositive denominatorPositive normal rounds negative
      isPower notLeast below
  have gap : (lowGap significand exponent : ℚ) ≤ 2 := by
    exact_mod_cast (lowGap_bounds significand exponent).2
  have low : (4 * significand - 2 : ℚ) * 2 ^ (exponent - 2) ≤ numerator / denominator :=
    (mul_le_mul_of_nonneg_right (by linarith) quarter.le).trans rounds.low
  have small : (significand : ℚ) + 1 ≤ 2 ^ 53 := by
    exact_mod_cast normal.small
  have isExponent : exponentOf numerator denominator = exponent := by
    refine exponentOf_eq numeratorPositive denominatorPositive ⟨normal.notBelow, ?_, ?_⟩
    · rw [show exponent + 53 = exponent + (53 : Nat) by rfl, zpow_eq_mul_quarter]
      refine rounds.high.trans_lt (mul_lt_mul_of_pos_right ?_ quarter)
      linarith
    · by_contra notFull
      rw [not_or, not_le] at notFull
      obtain ⟨notLeast, below⟩ := notFull
      have notPower : significand ≠ 2 ^ 52 := fun isPower =>
        belowPower ⟨isPower, lt_of_le_of_ne normal.notBelow (Ne.symm notLeast), below⟩
      have large : (2 ^ 52 + 1 : ℚ) ≤ significand := by
        have full := normal.full.resolve_left notLeast
        exact_mod_cast lt_of_le_of_ne full (Ne.symm notPower)
      rw [show exponent + 52 = exponent + (52 : Nat) by rfl, zpow_eq_mul_quarter] at below
      refine absurd (low.trans_lt below) (not_lt.2 ?_)
      exact mul_le_mul_of_nonneg_right (by linarith) quarter.le
  have isNearest : nearest (scaled numerator denominator exponent).1
      (scaled numerator denominator exponent).2 = significand := by
    refine nearest_eq (scaled_positive denominatorPositive _) ?_ ?_ fun odd => ⟨?_, ?_⟩
    all_goals
      rw [scaled_quotient, unit]
    · rw [le_div_iff₀ (by positivity)]
      linarith
    · rw [div_le_iff₀ (by positivity)]
      linarith [rounds.high]
    · rw [lt_div_iff₀ (by positivity)]
      have gapBelow : (4 * significand - 2 : ℚ) * 2 ^ (exponent - 2) ≤
          (4 * significand - lowGap significand exponent) * 2 ^ (exponent - 2) :=
        mul_le_mul_of_nonneg_right (by linarith) quarter.le
      linarith [(rounds.inside odd).1]
    · rw [div_lt_iff₀ (by positivity)]
      linarith [(rounds.inside odd).2]
  rw [ofQuotient, if_neg (by omega)]
  simp only [isExponent, isNearest, Nat.pow_eq, if_neg normal.small.ne]
  rw [dif_pos normal]

end

end AheadOfTime.Binary64
