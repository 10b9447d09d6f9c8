import AheadOfTime.Binary64.Shortest
import AheadOfTime.Proofs.Binary64.Rounding

/-!
# The search for the shortest decimal

The digits that are found lie between the midpoints around the number.  The search for the
first digit starts below it, and one of the numbers of eighteen digits always does so; hence the
search for the fewest digits ends with some that do.
-/

namespace AheadOfTime.Binary64

/-- The bounds of an interval are those between which numbers are rounded alike, over a common
denominator. -/
theorem interval_eq (significand : Nat) (exponent : Int) :
    ∃ power denominator : Nat, 0 < denominator ∧
      (power : ℚ) / denominator = 2 ^ (exponent - 2) ∧
      interval significand exponent =
        ⟨(4 * significand - lowGap significand exponent) * power, 4 * significand * power,
          (4 * significand + 2) * power, denominator, significand % 2 == 0⟩ := by
  have gap : (if significand = Nat.pow 2 52 && decide (leastExponent < exponent) then 1 else 2) =
      lowGap significand exponent := by
    simp [lowGap]
  rw [interval, gap]
  simp only []
  split_ifs with whole
  · obtain ⟨power, same⟩ := Int.eq_ofNat_of_zero_le whole
    refine ⟨2 ^ power, 1, one_pos, ?_, ?_⟩
    · rw [same, zpow_natCast]
      simp
    · rw [same]
      rfl
  · obtain ⟨power, same⟩ := Int.eq_ofNat_of_zero_le (by omega : 0 ≤ 2 - exponent)
    refine ⟨1, 2 ^ power, Nat.two_pow_pos power, ?_, ?_⟩
    · rw [show exponent - 2 = -(power : Int) by omega, zpow_neg, zpow_natCast]
      simp
    · rw [same]
      simp

/-- A candidate is in an interval when it is between the bounds. -/
theorem Interval.holds_iff {bounds : Interval} (positive : 0 < bounds.denominator)
    (candidate : Nat) (unit : Int) :
    bounds.holds candidate unit = true ↔
      if bounds.closed then
        (bounds.low : ℚ) / bounds.denominator ≤ candidate * 10 ^ unit ∧
          (candidate * 10 ^ unit : ℚ) ≤ bounds.high / bounds.denominator
      else
        (bounds.low : ℚ) / bounds.denominator < candidate * 10 ^ unit ∧
          (candidate * 10 ^ unit : ℚ) < bounds.high / bounds.denominator := by
  have positiveRat : (0 : ℚ) < bounds.denominator := Nat.cast_pos.2 positive
  rw [div_le_iff₀ positiveRat, le_div_iff₀ positiveRat, div_lt_iff₀ positiveRat,
    lt_div_iff₀ positiveRat, holds]
  by_cases whole : 0 ≤ unit
  · obtain ⟨power, rfl⟩ := Int.eq_ofNat_of_zero_le whole
    simp only [if_pos whole, Int.toNat_natCast, Nat.pow_eq, mul_one, zpow_natCast]
    split_ifs
    all_goals
      rw [Bool.and_eq_true, decide_eq_true_eq, decide_eq_true_eq]
      exact_mod_cast Iff.rfl
  · obtain ⟨power, same⟩ := Int.eq_ofNat_of_zero_le (by omega : 0 ≤ -unit)
    have scaled : (candidate * 10 ^ unit * bounds.denominator : ℚ) =
        candidate * bounds.denominator / 10 ^ power := by
      rw [show unit = -(power : Int) by omega, zpow_neg, zpow_natCast]
      ring
    have powerPositive : (0 : ℚ) < 10 ^ power := by
      positivity
    simp only [if_neg whole, same, Int.toNat_natCast, Nat.pow_eq, scaled]
    rw [le_div_iff₀ powerPositive, div_le_iff₀ powerPositive, lt_div_iff₀ powerPositive,
      div_lt_iff₀ powerPositive]
    split_ifs
    all_goals
      rw [Bool.and_eq_true, decide_eq_true_eq, decide_eq_true_eq]
      exact_mod_cast Iff.rfl

/-- A candidate that reads back lies between the midpoints around the number. -/
theorem holds_interval_iff {significand : Nat} {exponent : Int} (positive : 0 < significand)
    (candidate : Nat) (unit : Int) :
    (interval significand exponent).holds candidate unit = true ↔
      RoundsTo (candidate * 10 ^ unit) significand exponent := by
  obtain ⟨power, denominator, denominatorPositive, quarter, bounds⟩ :=
    interval_eq significand exponent
  have gap := (lowGap_bounds significand exponent).2
  have low : (((4 * significand - lowGap significand exponent) * power : Nat) : ℚ) / denominator =
      (4 * significand - lowGap significand exponent) * 2 ^ (exponent - 2) := by
    rw [← quarter, Nat.cast_mul, Nat.cast_sub (by omega), mul_div_assoc]
    push_cast
    rfl
  have high : (((4 * significand + 2) * power : Nat) : ℚ) / denominator =
      (4 * significand + 2) * 2 ^ (exponent - 2) := by
    rw [← quarter, Nat.cast_mul, mul_div_assoc]
    push_cast
    rfl
  rw [bounds, Interval.holds_iff denominatorPositive]
  simp only [low, high, beq_iff_eq]
  constructor
  · intro within
    split_ifs at within with even
    · exact ⟨within.1, within.2, fun odd => by omega⟩
    · exact ⟨within.1.le, within.2.le, fun _ => within⟩
  · intro rounds
    split_ifs with even
    · exact ⟨rounds.low, rounds.high⟩
    · exact rounds.inside (by omega)

theorem value_interval (significand : Nat) (exponent : Int) :
    0 < (interval significand exponent).denominator ∧
      ((interval significand exponent).value : ℚ) / (interval significand exponent).denominator =
        4 * significand * 2 ^ (exponent - 2) := by
  obtain ⟨power, denominator, positive, quarter, bounds⟩ := interval_eq significand exponent
  rw [bounds, ← quarter]
  refine ⟨positive, ?_⟩
  push_cast
  exact mul_div_assoc _ _ _

section

variable {bounds : Interval} (positive : 0 < bounds.denominator)
include positive

theorem reached_iff (start : Int) :
    (if 0 ≤ start then
        decide (bounds.value < bounds.denominator * Nat.pow 10 start.toNat)
      else
        decide (bounds.value * Nat.pow 10 (-start).toNat < bounds.denominator)) = true ↔
      (bounds.value : ℚ) / bounds.denominator < 10 ^ start := by
  rw [div_lt_iff₀' (Nat.cast_pos.2 positive)]
  split_ifs with whole
  · obtain ⟨power, rfl⟩ := Int.eq_ofNat_of_zero_le whole
    rw [decide_eq_true_eq, Int.toNat_natCast, Nat.pow_eq, zpow_natCast]
    exact_mod_cast Iff.rfl
  · obtain ⟨power, same⟩ := Int.eq_ofNat_of_zero_le (by omega : 0 ≤ -start)
    rw [decide_eq_true_eq, same, Int.toNat_natCast, Nat.pow_eq,
      show start = -(power : Int) by omega, zpow_neg, zpow_natCast, ← div_eq_mul_inv,
      lt_div_iff₀ (by positivity)]
    exact_mod_cast Iff.rfl

/-- The search does not go beyond the first digit. -/
theorem decimalExponent_notAbove {start : Int} (steps : Nat)
    (below : (10 : ℚ) ^ (start - 1) ≤ bounds.value / bounds.denominator) :
    (10 : ℚ) ^ (decimalExponent bounds steps start - 1) ≤ bounds.value / bounds.denominator := by
  induction steps generalizing start with
  | zero =>
      exact below
  | succ steps inductionHypothesis =>
      rw [decimalExponent]
      simp only [reached_iff positive start]
      split_ifs with reached
      · exact below
      · refine inductionHypothesis ?_
        rw [add_sub_cancel_right]
        exact not_lt.1 reached

omit positive in
theorem holds_of_candidate? {place : Int} {count : Nat} {tieUp : Bool} {found : Nat}
    (reads : candidate? bounds place count tieUp = some found) :
    bounds.holds found (place - count) = true := by
  rw [candidate?] at reads
  split_ifs at reads
  all_goals
    cases reads
    assumption

/-- The value of an interval in units of a power of ten. -/
theorem value_in_units (unit : Int) :
    ∃ above below : Nat, 0 < below ∧
      (if 0 ≤ unit then bounds.value else bounds.value * Nat.pow 10 (-unit).toNat) = above ∧
      (if 0 ≤ unit then bounds.denominator * Nat.pow 10 unit.toNat else bounds.denominator) =
        below ∧
      (above : ℚ) / below = bounds.value / bounds.denominator / 10 ^ unit := by
  split_ifs with whole
  · obtain ⟨power, rfl⟩ := Int.eq_ofNat_of_zero_le whole
    refine ⟨_, _, ?_, rfl, rfl, ?_⟩
    · exact Nat.mul_pos positive (Nat.pow_pos (by decide))
    · rw [Int.toNat_natCast, Nat.pow_eq, zpow_natCast, div_div]
      push_cast
      rfl
  · obtain ⟨power, same⟩ := Int.eq_ofNat_of_zero_le (by omega : 0 ≤ -unit)
    refine ⟨_, _, positive, rfl, rfl, ?_⟩
    rw [same, Int.toNat_natCast, Nat.pow_eq, show unit = -(power : Int) by omega, zpow_neg,
      zpow_natCast, div_inv_eq_mul]
    push_cast
    ring

/-- Where every number within one unit of the value reads back, one is found. -/
theorem candidate?_isSome (place : Int) (count : Nat) (tieUp : Bool)
    (room : ∀ candidate : Nat,
      |candidate * (10 : ℚ) ^ (place - count) - bounds.value / bounds.denominator| ≤
          10 ^ (place - count) →
        bounds.holds candidate (place - count) = true) :
    (candidate? bounds place count tieUp).isSome = true := by
  obtain ⟨above, below, belowPositive, isAbove, isBelow, units⟩ :=
    value_in_units positive (place - count)
  have unitPositive : (0 : ℚ) < 10 ^ (place - count) := by
    positivity
  have belowRat : (0 : ℚ) < below := Nat.cast_pos.2 belowPositive
  rw [eq_div_iff unitPositive.ne'] at units
  have notMore : (above / below : Nat) * (10 : ℚ) ^ (place - count) ≤
      bounds.value / bounds.denominator := by
    rw [← units]
    refine mul_le_mul_of_nonneg_right ?_ unitPositive.le
    rw [le_div_iff₀ belowRat]
    exact_mod_cast Nat.div_mul_le_self above below
  have notLess : (bounds.value : ℚ) / bounds.denominator <
      ((above / below : Nat) + 1) * (10 : ℚ) ^ (place - count) := by
    rw [← units]
    refine mul_lt_mul_of_pos_right ?_ unitPositive
    rw [div_lt_iff₀ belowRat]
    exact_mod_cast Nat.lt_mul_of_div_lt (Nat.lt_succ_self _) belowPositive
  have floorHolds := room (above / below) (by rw [abs_le]; constructor <;> linarith)
  have nextHolds := room (above / below + 1) (by
    push_cast
    rw [abs_le]
    constructor <;> linarith)
  rw [candidate?]
  simp only [isAbove, isBelow]
  generalize (if 2 * (above % below) < below then false
    else if below < 2 * (above % below) then true
    else tieUp || above / below % 2 == 1) = upper
  cases upper with
  | true =>
      simp only [if_true, nextHolds, Option.isSome_some]
  | false =>
      simp only [Bool.false_eq_true, if_false, floorHolds, if_true, Option.isSome_some]

omit positive in
/-- The search ends with a number that reads back, if there is one at its end. -/
theorem fewest_holds {place : Int} {tieUp : Bool} (tries count : Nat)
    (reads : (candidate? bounds place (count + tries) tieUp).isSome = true) :
    bounds.holds (fewest bounds place tieUp (tries + 1) count).1
      (place - (fewest bounds place tieUp (tries + 1) count).2) = true := by
  induction tries generalizing count with
  | zero =>
      rw [fewest]
      obtain ⟨found, isFound⟩ := Option.isSome_iff_exists.1 reads
      rw [show count + 0 = count by rfl] at isFound
      rw [isFound]
      exact holds_of_candidate? isFound
  | succ tries inductionHypothesis =>
      rw [fewest]
      cases isFound : candidate? bounds place count tieUp with
      | some found =>
          exact holds_of_candidate? isFound
      | none =>
          refine inductionHypothesis (count + 1) ?_
          rwa [show count + 1 + tries = count + (tries + 1) by omega]

end

/-- The search for the first digit starts below it: a power of two is at least the power of ten
with three tenths of its exponent, but for a factor of a thousand. -/
theorem power_start {size : Int} (notBelow : leastExponent ≤ size) :
    (10 : ℚ) ^ (size * 3 / 10 - 3) ≤ 2 ^ size := by
  have ratio : (10 : ℚ) ^ (-30 : Int) ≤ (128 / 125) ^ size := by
    have power : ((128 / 125 : ℚ) ^ 30) ^ 36 ≤ 5 ^ 36 :=
      pow_le_pow_left₀ (by positivity) (by norm_num) 36
    calc (10 : ℚ) ^ (-30 : Int) ≤ (5 ^ 36)⁻¹ := by
          norm_num
      _ ≤ (((128 / 125) ^ 30) ^ 36)⁻¹ := inv_anti₀ (by positivity) power
      _ = (128 / 125) ^ (-1080 : Int) := by
          rw [← pow_mul, zpow_neg]
          rfl
      _ ≤ (128 / 125) ^ size := by
          refine zpow_le_zpow_right₀ (by norm_num) ?_
          rw [leastExponent] at notBelow
          omega
  have tenth : (10 * (size * 3 / 10 - 3) : Int) ≤ 3 * size - 30 := by
    omega
  rw [← pow_le_pow_iff_left₀ (by positivity) (by positivity) (by decide : 10 ≠ 0)]
  calc ((10 : ℚ) ^ (size * 3 / 10 - 3)) ^ 10
      = 10 ^ (10 * (size * 3 / 10 - 3)) := by
        rw [← zpow_natCast, ← zpow_mul, mul_comm]
        rfl
    _ ≤ 10 ^ (3 * size - 30) := zpow_le_zpow_right₀ (by norm_num) tenth
    _ = (10 ^ 3) ^ size * 10 ^ (-30 : Int) := by
        rw [sub_eq_add_neg, zpow_add₀ (by norm_num), zpow_mul]
        rfl
    _ ≤ (10 ^ 3) ^ size * (128 / 125) ^ size := by
        gcongr
    _ = (2 ^ size) ^ 10 := by
        rw [← mul_zpow, ← zpow_natCast ((2 : ℚ) ^ size) 10, zpow_comm]
        norm_num

section

variable {significand : Nat} {exponent : Int} (positive : 0 < significand)
  (normal : Normal significand exponent)
include positive normal

omit normal in
theorem size_le_value :
    (2 : ℚ) ^ ((significand.log2 : Int) + exponent) ≤
      4 * significand * 2 ^ (exponent - 2) := by
  have above : (2 : ℚ) ^ significand.log2 ≤ significand := by
    exact_mod_cast Nat.log2_self_le (by omega)
  have unit : (2 : ℚ) ^ exponent = 4 * 2 ^ (exponent - 2) := by
    have quarters := zpow_eq_mul_quarter exponent 0
    simpa using quarters
  rw [zpow_add₀ two_ne_zero, zpow_natCast, unit]
  calc (2 : ℚ) ^ significand.log2 * (4 * 2 ^ (exponent - 2))
      ≤ significand * (4 * 2 ^ (exponent - 2)) := by
        gcongr
    _ = 4 * significand * 2 ^ (exponent - 2) := by
        ring

omit positive in
/-- Among numbers of eighteen digits there is room for one between the midpoints. -/
theorem roundsTo_of_near {place : Int}
    (below : (10 : ℚ) ^ (place - 1) ≤ 4 * significand * 2 ^ (exponent - 2)) {value : ℚ}
    (near : |value - 4 * significand * 2 ^ (exponent - 2)| ≤ 10 ^ (place - 18)) :
    RoundsTo value significand exponent := by
  have quarter : (0 : ℚ) < 2 ^ (exponent - 2) := by
    positivity
  have small : (significand : ℚ) < 2 ^ 53 := by
    exact_mod_cast normal.small
  have gap : (1 : ℚ) ≤ lowGap significand exponent := by
    exact_mod_cast (lowGap_bounds significand exponent).1
  have shift : (10 : ℚ) ^ (place - 1) = 10 ^ 17 * 10 ^ (place - 18) := by
    rw [show place - 1 = (17 : Nat) + (place - 18) by push_cast; ring, zpow_add₀ (by norm_num),
      zpow_natCast]
  have unit : (10 : ℚ) ^ (place - 18) < 2 ^ (exponent - 2) := by
    have scaled : (significand : ℚ) * 2 ^ (exponent - 2) < 2 ^ 53 * 2 ^ (exponent - 2) :=
      mul_lt_mul_of_pos_right small quarter
    rw [shift] at below
    linarith
  have low : (4 * significand - lowGap significand exponent : ℚ) * 2 ^ (exponent - 2) < value := by
    have gapped : (4 * significand - lowGap significand exponent : ℚ) * 2 ^ (exponent - 2) ≤
        (4 * significand - 1) * 2 ^ (exponent - 2) :=
      mul_le_mul_of_nonneg_right (by linarith) quarter.le
    rw [abs_le] at near
    linarith
  have high : value < (4 * significand + 2) * 2 ^ (exponent - 2) := by
    rw [abs_le] at near
    linarith
  exact ⟨low.le, high.le, fun _ => ⟨low, high⟩⟩

/-- The digits of the shortest decimal are those of a number that reads back. -/
theorem shortest_eq (tieUp : Bool) :
    ∃ found : Nat, ∃ unit : Int, 0 < found ∧
      RoundsTo (found * 10 ^ unit) significand exponent ∧
      shortest significand exponent tieUp =
        ⟨significantDigits found, unit + (Nat.toDigits 10 found).length⟩ := by
  obtain ⟨denominatorPositive, isValue⟩ := value_interval significand exponent
  have start : (10 : ℚ) ^ ((((significand.log2 : Int) + exponent) * 3 / 10 - 2) - 1) ≤
      (interval significand exponent).value / (interval significand exponent).denominator := by
    have notBelow : leastExponent ≤ (significand.log2 : Int) + exponent := by
      have := normal.notBelow
      omega
    rw [isValue, sub_sub]
    exact (power_start notBelow).trans (size_le_value positive)
  have below := decimalExponent_notAbove denominatorPositive 40 start
  rw [shortest]
  simp only []
  generalize decimalExponent (interval significand exponent) 40
    (((significand.log2 : Int) + exponent) * 3 / 10 - 2) = place at below ⊢
  have reads := candidate?_isSome denominatorPositive place (1 + 17) tieUp fun candidate near => by
    rw [isValue] at below near
    exact (holds_interval_iff positive _ _).2 (roundsTo_of_near normal below near)
  have rounds := (holds_interval_iff positive _ _).1 (fewest_holds 17 1 reads)
  have foundPositive := pos_of_mul_pos_left (rounds.positive positive) (by positivity)
  exact ⟨_, _, Nat.cast_pos.1 foundPositive, rounds, rfl⟩

end

end AheadOfTime.Binary64
