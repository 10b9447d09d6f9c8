/-!
# Binary floating-point numbers

The numbers of the 64-bit binary format as exact values: a finite number is a
significand below `2 ^ 53` times a power of two.  Every operation here computes
the exact result first and rounds it once, to the nearest number, ties to the
even significand.
-/

namespace AheadOfTime

namespace Binary64

/-- The least exponent of a finite number. -/
def leastExponent : Int := -1074

def greatestExponent : Int := 971

/-- Whether a significand and an exponent are those of a finite number: no other significand
and exponent have the same value. -/
structure Normal (significand : Nat) (exponent : Int) : Prop where
  small : significand < Nat.pow 2 53
  notBelow : leastExponent ≤ exponent
  notAbove : exponent ≤ greatestExponent
  full : exponent = leastExponent ∨ Nat.pow 2 52 ≤ significand

instance (significand : Nat) (exponent : Int) : Decidable (Normal significand exponent) :=
  decidable_of_iff (significand < Nat.pow 2 53 ∧ leastExponent ≤ exponent ∧
      exponent ≤ greatestExponent ∧
        (exponent = leastExponent ∨ Nat.pow 2 52 ≤ significand))
    ⟨fun ⟨small, notBelow, notAbove, full⟩ => ⟨small, notBelow, notAbove, full⟩,
      fun normal => ⟨normal.small, normal.notBelow, normal.notAbove, normal.full⟩⟩

end Binary64

/-- A 64-bit binary number. A finite one has the value `significand * 2 ^ exponent`. -/
inductive Binary64 where
  | nan
  | infinite (negative : Bool)
  | finite (negative : Bool) (significand : Nat) (exponent : Int)
      (normal : Binary64.Normal significand exponent)
  deriving DecidableEq

namespace Binary64

def zero (negative : Bool) : Binary64 :=
  finite negative 0 leastExponent (by decide)

/-- The whole number nearest to a quotient, ties to the even one. -/
def nearest (numerator denominator : Nat) : Nat :=
  let quotient := numerator / denominator
  let twice := 2 * (numerator % denominator)
  if twice < denominator then quotient
  else if denominator < twice then quotient + 1
  else if quotient % 2 = 0 then quotient
  else quotient + 1

/-- The quotient of two numbers over a power of two, as numerator and
denominator. -/
def scaled (numerator denominator : Nat) (exponent : Int) : Nat × Nat :=
  if 0 ≤ exponent then
    (numerator, denominator * Nat.pow 2 exponent.toNat)
  else
    (numerator * Nat.pow 2 (-exponent).toNat, denominator)

/-- The exponent of the number nearest to a positive quotient, before rounding:
the quotient has 53 bits above it, or it is the least exponent. -/
def exponentOf (numerator denominator : Nat) : Int :=
  let guess := max leastExponent (numerator.log2 - denominator.log2 - 53 : Int)
  let (above, below) := scaled numerator denominator guess
  if above / below < Nat.pow 2 53 then guess else guess + 1

/-- The number nearest to a quotient; beyond the greatest one it is infinite. -/
def ofQuotient (negative : Bool) (numerator denominator : Nat) : Binary64 :=
  if numerator = 0 then
    zero negative
  else
    let exponent := exponentOf numerator denominator
    let (above, below) := scaled numerator denominator exponent
    let significand := nearest above below
    let (significand, exponent) :=
      if significand = Nat.pow 2 53 then (Nat.pow 2 52, exponent + 1) else (significand, exponent)
    if normal : Normal significand exponent then
      finite negative significand exponent normal
    else
      infinite negative

/-- The number nearest to a whole number. -/
def ofNat (negative : Bool) (value : Nat) : Binary64 :=
  ofQuotient negative value 1

/-- The number nearest to a whole number with a sign. -/
def ofInt (value : Int) : Binary64 :=
  ofNat (decide (value < 0)) value.natAbs

/-- Beyond this power of ten no number of at most `digits` digits is finite or
different from zero. -/
private def decimalBound : Int := 400

/-- The number nearest to `digits * 10 ^ exponent`. -/
def ofDecimal (negative : Bool) (digits : Nat) (exponent : Int) : Binary64 :=
  let size : Int := (Nat.toDigits 10 digits).length
  if digits = 0 || exponent + size < -decimalBound then
    zero negative
  else if decimalBound < exponent + size then
    infinite negative
  else if 0 ≤ exponent then
    ofQuotient negative (digits * Nat.pow 10 exponent.toNat) 1
  else
    ofQuotient negative digits (Nat.pow 10 (-exponent).toNat)

/-- A finite magnitude as numerator and denominator. -/
private def magnitude (significand : Nat) (exponent : Int) : Nat × Nat :=
  if 0 ≤ exponent then
    (significand * Nat.pow 2 exponent.toNat, 1)
  else
    (significand, Nat.pow 2 (-exponent).toNat)

/-- The product of two magnitudes that are finite and not negative. -/
def timesMagnitude (left right : Binary64) : Binary64 :=
  match left, right with
  | finite _ leftSignificand leftExponent _, finite _ rightSignificand rightExponent _ =>
      let (above, below) := magnitude leftSignificand leftExponent
      let (factor, divisor) := magnitude rightSignificand rightExponent
      ofQuotient false (above * factor) (below * divisor)
  | finite .., other => other
  | other, _ => other

/-- The quotient of two magnitudes that are finite and not negative. -/
def overMagnitude (left right : Binary64) : Binary64 :=
  match left, right with
  | finite _ leftSignificand leftExponent _, finite _ rightSignificand rightExponent _ =>
      let (above, below) := magnitude leftSignificand leftExponent
      let (factor, divisor) := magnitude rightSignificand rightExponent
      ofQuotient false (above * divisor) (below * factor)
  | other, _ => other

def withSign (negative : Bool) : Binary64 → Binary64
  | nan => nan
  | infinite _ => infinite negative
  | finite _ significand exponent normal => finite negative significand exponent normal

def isZero : Binary64 → Bool
  | finite _ significand _ _ => significand == 0
  | _ => false

def isInfinite : Binary64 → Bool
  | infinite _ => true
  | _ => false

end Binary64

end AheadOfTime
