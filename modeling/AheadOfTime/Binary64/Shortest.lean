import AheadOfTime.Binary64

/-!
# Shortest decimal text

The text of a number has the fewest digits that read back as the number; of two
such texts it is the nearer one.  How the digits are laid out is a record of
decisions, because several formats share the digits and differ in the layout.
-/

namespace AheadOfTime.Binary64

/-- Decimal digits after a point, scaled: the value is
`0.digits * 10 ^ exponent`. -/
structure Decimal where
  digits : List Char
  exponent : Int
  deriving DecidableEq

/-- The numbers that round to a finite number, all over one denominator:
from `low` to `high` around `value`, with the ends when the significand is
even. -/
structure Interval where
  low : Nat
  value : Nat
  high : Nat
  denominator : Nat
  closed : Bool

/-- The rounding interval of `significand * 2 ^ exponent`. Below a power of two
the next number is only half as far away. -/
def interval (significand : Nat) (exponent : Int) : Interval :=
  let lowGap := if significand = Nat.pow 2 52 && leastExponent < exponent then 1 else 2
  let low := 4 * significand - lowGap
  let value := 4 * significand
  let high := 4 * significand + 2
  let closed := significand % 2 == 0
  if 0 ≤ exponent - 2 then
    let power := Nat.pow 2 (exponent - 2).toNat
    ⟨low * power, value * power, high * power, 1, closed⟩
  else
    ⟨low, value, high, Nat.pow 2 (2 - exponent).toNat, closed⟩

/-- Whether `candidate * 10 ^ unit` reads back as the number of the interval. -/
def Interval.holds (bounds : Interval) (candidate : Nat) (unit : Int) : Bool :=
  let above := if 0 ≤ unit then candidate * Nat.pow 10 unit.toNat * bounds.denominator
    else candidate * bounds.denominator
  let factor := if 0 ≤ unit then 1 else Nat.pow 10 (-unit).toNat
  if bounds.closed then
    bounds.low * factor ≤ above && above ≤ bounds.high * factor
  else
    bounds.low * factor < above && above < bounds.high * factor

/-- The exponent of the first digit: the value of the interval is below
`10 ^ exponent` and not below a tenth of it. The search starts below and ends
within `steps`. -/
def decimalExponent (bounds : Interval) : (steps : Nat) → (start : Int) → Int
  | 0, start => start
  | steps + 1, start =>
      let reached :=
        if 0 ≤ start then
          decide (bounds.value < bounds.denominator * Nat.pow 10 start.toNat)
        else
          decide (bounds.value * Nat.pow 10 (-start).toNat < bounds.denominator)
      if reached then start else decimalExponent bounds steps (start + 1)

/-- The best number of `count` digits for the value of the interval, if one
reads back: of the two neighbours the nearer one, and of two equally near ones
the greater if `tieUp` and else the even one. -/
def candidate? (bounds : Interval) (exponent : Int) (count : Nat) (tieUp : Bool) :
    Option Nat :=
  let unit := exponent - count
  let above := if 0 ≤ unit then bounds.value else bounds.value * Nat.pow 10 (-unit).toNat
  let below := if 0 ≤ unit then bounds.denominator * Nat.pow 10 unit.toNat else bounds.denominator
  let floor := above / below
  let twice := 2 * (above % below)
  let upper :=
    if twice < below then false
    else if below < twice then true
    else tieUp || floor % 2 == 1
  let first := if upper then floor + 1 else floor
  let second := if upper then floor else floor + 1
  if bounds.holds first unit then some first
  else if bounds.holds second unit then some second
  else none

/-- The fewest digits that read back, tried from `count` digits on. -/
def fewest (bounds : Interval) (exponent : Int) (tieUp : Bool) :
    (tries count : Nat) → Nat × Nat
  | 0, count => (0, count)
  | tries + 1, count =>
      match candidate? bounds exponent count tieUp with
      | some found => (found, count)
      | none => fewest bounds exponent tieUp tries (count + 1)

/-- The digits of a number without the zeros it ends in. -/
def significantDigits (value : Nat) : List Char :=
  ((Nat.toDigits 10 value).reverse.dropWhile (· == '0')).reverse

/-- The shortest decimal that reads back as `significand * 2 ^ exponent`. -/
def shortest (significand : Nat) (exponent : Int) (tieUp : Bool) : Decimal :=
  let bounds := interval significand exponent
  let start : Int := ((significand.log2 : Int) + exponent) * 3 / 10 - 2
  let place := decimalExponent bounds 40 start
  let (found, count) := fewest bounds place tieUp 18 1
  let digits := Nat.toDigits 10 found
  ⟨significantDigits found, place - count + digits.length⟩

/-- How a number is written. Decimal exponents are those of `Decimal`. -/
structure Layout where
  /-- The least exponent written without a power of ten. -/
  leastPlain : Option Int
  /-- The greatest exponent written without a power of ten. -/
  greatestPlain : Option Int
  /-- Whether a whole number ends in `.0` when it is written without a power of
  ten. -/
  pointZero : Bool
  /-- Whether of two equally near texts the greater one is written. -/
  tieUp : Bool

def Decimal.plain (decimal : Decimal) (pointZero : Bool) : List Char :=
  let digits := decimal.digits
  let tail := if pointZero then ['.', '0'] else []
  if decimal.exponent ≤ 0 then
    ['0', '.'] ++ List.replicate (-decimal.exponent).toNat '0' ++ digits
  else
    let whole := decimal.exponent.toNat
    if digits.length ≤ whole then
      digits ++ List.replicate (whole - digits.length) '0' ++ tail
    else
      digits.take whole ++ '.' :: digits.drop whole

/-- Digits with a power of ten, one digit before the point. -/
def Decimal.scientific (decimal : Decimal) : List Char :=
  let fraction := decimal.digits.drop 1
  decimal.digits.take 1 ++ (if fraction.isEmpty then [] else '.' :: fraction) ++
    'e' :: (toString (decimal.exponent - 1)).toList

/-- The text of a finite magnitude other than zero. -/
def Layout.magnitude (layout : Layout) (significand : Nat) (exponent : Int) : List Char :=
  let decimal := shortest significand exponent layout.tieUp
  let small := layout.leastPlain.any fun least => decimal.exponent < least
  let large := layout.greatestPlain.any fun greatest => greatest < decimal.exponent
  if small || large then decimal.scientific else decimal.plain layout.pointZero

def Layout.write (layout : Layout) : Binary64 → String
  | nan => "NaN"
  | infinite negative => if negative then "-inf" else "inf"
  | finite negative significand exponent _ =>
      let sign := if negative then ['-'] else []
      let magnitude :=
        if significand = 0 then
          '0' :: (if layout.pointZero then ['.', '0'] else [])
        else
          layout.magnitude significand exponent
      String.ofList (sign ++ magnitude)

end AheadOfTime.Binary64
