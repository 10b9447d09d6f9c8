import AheadOfTime.Literal
import AheadOfTime.Proofs.Java.Tokens

/-!
# Constant expressions of Java

Literals, and what signs, quotients and parentheses make of them: how they are read from tokens,
and the types and the values that they have.  The reader refuses the literals that generated
source has no use for: those that are not decimal, and those of type `float`.
-/

namespace AheadOfTime

namespace Binary64

def isNegative : Binary64 → Bool
  | nan => false
  | infinite negative => negative
  | finite negative _ _ _ => negative

def negated (value : Binary64) : Binary64 :=
  value.withSign !value.isNegative

/-- The quotient of two numbers, none of them exceptional. -/
def dividedBy (above below : Binary64) : Binary64 :=
  let negative := above.isNegative != below.isNegative
  match above, below with
  | nan, _ | _, nan => nan
  | infinite _, infinite _ => nan
  | infinite _, finite .. => infinite negative
  | finite .., infinite _ => zero negative
  | finite .., finite .. =>
      if below.isZero then
        if above.isZero then nan else infinite negative
      else
        (overMagnitude above below).withSign negative

end Binary64

namespace Java

/-- A constant expression. A real literal is `digits * 10 ^ scale`. -/
inductive Constant where
  | boolean (value : Bool)
  | integer (magnitude : Nat) (long : Bool)
  | real (digits : Nat) (scale : Int)
  | text (value : List Nat)
  | negative (operand : Constant)
  | quotient (above below : Constant)
  | enclosed (inside : Constant)
  deriving DecidableEq

namespace Constant

def digits? (chars : List Char) : Option Nat :=
  if chars ≠ [] ∧ chars.all Char.isDigit = true then some (Nat.ofDigitChars 10 chars 0) else none

/-- A decimal integer: a zero before other digits would make it octal. -/
def integer? (long : Bool) (chars : List Char) : Option Constant :=
  if chars = ['0'] ∨ chars.head? ≠ some '0' then
    (digits? chars).map (.integer · long)
  else
    none

def power? : List Char → Option Int
  | '-' :: chars => (digits? chars).map fun magnitude => -(magnitude : Int)
  | '+' :: chars => (digits? chars).map Int.ofNat
  | chars => (digits? chars).map Int.ofNat

def isPowerMark (c : Char) : Bool :=
  c == 'e' || c == 'E'

/-- A real number: digits with a point among them or none, and a power of ten or none. -/
def real? (chars : List Char) : Option Constant :=
  let mantissa := chars.takeWhile (!isPowerMark ·)
  let power := (chars.dropWhile (!isPowerMark ·)).tail?
  let whole := mantissa.takeWhile (· != '.')
  let fraction := (mantissa.dropWhile (· != '.')).drop 1
  match digits? (whole ++ fraction), power.elim (some 0) power? with
  | some digits, some exponent => some (.real digits (exponent - fraction.length))
  | _, _ => none

/-- A number; its last character may be the mark of its type. -/
def number? (chars : List Char) : Option Constant :=
  if chars.getLast? = some 'L' ∨ chars.getLast? = some 'l' then integer? true chars.dropLast
  else if chars.getLast? = some 'd' ∨ chars.getLast? = some 'D' then real? chars.dropLast
  else if chars.all Char.isDigit then integer? false chars
  else real? chars

def ofToken? : Token → Option Constant
  | .word units =>
      let chars := units.map Char.ofNat
      if chars = "true".toList then some (.boolean true)
      else if chars = "false".toList then some (.boolean false)
      else number? chars
  | .text value => some (.text value)
  | .mark _ => none

/-- What an operand is still missing from: a sign before it, a quotient that it is the divisor
of, or the parenthesis that opens before it. -/
inductive Pending where
  | sign
  | divisor (above : Constant)
  | parenthesis

/-- Give an operand to all that was waiting for it. -/
def settle : Constant → List Pending → Constant × List Pending
  | constant, .sign :: rest => settle (.negative constant) rest
  | constant, .divisor above :: rest => settle (.quotient above constant) rest
  | constant, pending => (constant, pending)

/-- Read an expression: an operand, if none was read yet, or what follows one. -/
def parse? : Option Constant → List Pending → List Token → Option Constant
  | none, pending, token :: rest =>
      if token = .mark '-'.toNat then parse? none (.sign :: pending) rest
      else if token = .mark '('.toNat then parse? none (.parenthesis :: pending) rest
      else
        match ofToken? token with
        | none => none
        | some literal =>
            let (operand, pending) := settle literal pending
            parse? (some operand) pending rest
  | some above, pending, token :: rest =>
      if token = .mark '/'.toNat then parse? none (.divisor above :: pending) rest
      else if token = .mark ')'.toNat then
        match pending with
        | .parenthesis :: pending =>
            let (operand, pending) := settle (.enclosed above) pending
            parse? (some operand) pending rest
        | _ => none
      else none
  | some constant, [], [] => some constant
  | _, _, [] => none

def ofTokens? (tokens : List Token) : Option Constant :=
  parse? none [] tokens

end Constant

def constant? (source : String) : Option Constant :=
  (readTokens? source.toList).bind Constant.ofTokens?

/-! ## Types -/

inductive ConstantType where
  | boolean
  | int
  | long
  | double
  | string
  deriving DecidableEq

namespace ConstantType

def name : ConstantType → TypeName
  | boolean => .unpackaged { text := "boolean" }
  | int => .unpackaged { text := "int" }
  | long => .unpackaged { text := "long" }
  | double => .unpackaged { text := "double" }
  | string => .lang { text := "String" }

/-- The class that boxing makes of a value of a type. -/
def box? : ConstantType → Option TypeName
  | boolean => some (.lang { text := "Boolean" })
  | int => some (.lang { text := "Integer" })
  | long => some (.lang { text := "Long" })
  | double => some (.lang { text := "Double" })
  | string => none

/-- Whether a value of a type may initialize a variable of a declared type: the types are the
same, or the value is boxed. -/
inductive Initializes (type : ConstantType) : TypeName → Prop where
  | same : Initializes type type.name
  | boxed {declared : TypeName} (isBox : type.box? = some declared) : Initializes type declared

def isNumeric : ConstantType → Bool
  | int | long | double => true
  | boolean | string => false

def combined? (first second : ConstantType) : Option ConstantType :=
  if first.isNumeric && second.isNumeric then
    if first = double ∨ second = double then some double
    else if first = long ∨ second = long then some long
    else some int
  else
    none

/-- The least number that is too large for an integer type. -/
def integerBound (long : Bool) : Nat :=
  if long then Nat.pow 2 63 else Nat.pow 2 31

def ofInteger (long : Bool) : ConstantType :=
  if long then .long else .int

end ConstantType

namespace Constant

/-- The number that a real literal is rounded to. It must not be infinite, and zero only if all
the digits are. -/
def rounded? (digits : Nat) (scale : Int) : Option Binary64 :=
  let value := Binary64.ofDecimal false digits scale
  if value.isInfinite ∨ (value.isZero ∧ digits ≠ 0) then none else some value

/-- The type of an expression, if it is allowed. The integer that is too large by one is allowed
behind a sign, and nowhere else. -/
def type? : Constant → Option ConstantType
  | boolean _ => some .boolean
  | integer magnitude long =>
      if magnitude < ConstantType.integerBound long then some (.ofInteger long) else none
  | real digits scale => (rounded? digits scale).map fun _ => .double
  | text _ => some .string
  | negative (integer magnitude long) =>
      if magnitude ≤ ConstantType.integerBound long then some (.ofInteger long) else none
  | negative operand => operand.type?.filter ConstantType.isNumeric
  | quotient above below =>
      match above.type?, below.type? with
      | some aboveType, some belowType => aboveType.combined? belowType
      | _, _ => none
  | enclosed inside => inside.type?

end Constant

/-- The value of a constant expression. A text is the code units in it. -/
inductive Value where
  | boolean (value : Bool)
  | int (value : Int32)
  | long (value : Int64)
  | double (value : Binary64)
  | text (value : List Nat)
  deriving DecidableEq

namespace Value

def type : Value → ConstantType
  | boolean _ => .boolean
  | int _ => .int
  | long _ => .long
  | double _ => .double
  | text _ => .string

def ofInteger (long : Bool) (value : Int) : Value :=
  if long then .long (.ofInt value) else .int (.ofInt value)

def negated? : Value → Option Value
  | int value => some (.int (-value))
  | long value => some (.long (-value))
  | double value => some (.double value.negated)
  | boolean _ | text _ => none

def long? : Value → Option Int64
  | int value => some value.toInt64
  | long value => some value
  | boolean _ | double _ | text _ => none

def double? : Value → Option Binary64
  | int value => some (.ofInt value.toInt)
  | long value => some (.ofInt value.toInt)
  | double value => some value
  | boolean _ | text _ => none

/-- A quotient. That of integers is rounded towards zero, and there is none by zero. -/
def dividedBy? (above below : Value) : Option Value :=
  match above, below with
  | int above, int below => if below = 0 then none else some (.int (above / below))
  | double above, below => below.double?.map fun below => .double (above.dividedBy below)
  | above, double below => above.double?.map fun above => .double (above.dividedBy below)
  | above, below =>
      match above.long?, below.long? with
      | some above, some below => if below = 0 then none else some (.long (above / below))
      | _, _ => none

end Value

def Constant.value? : Constant → Option Value
  | boolean value => some (.boolean value)
  | integer magnitude long =>
      if magnitude < ConstantType.integerBound long then some (.ofInteger long magnitude) else none
  | real digits scale => (rounded? digits scale).map .double
  | text value => some (.text value)
  | negative (integer magnitude long) =>
      if magnitude ≤ ConstantType.integerBound long then some (.ofInteger long (-magnitude))
      else none
  | negative operand => operand.value?.bind Value.negated?
  | quotient above below =>
      match above.value?, below.value? with
      | some aboveValue, some belowValue => aboveValue.dividedBy? belowValue
      | _, _ => none
  | enclosed inside => inside.value?

theorem Value.type_ofInteger (long : Bool) (value : Int) :
    (Value.ofInteger long value).type = .ofInteger long := by
  cases long <;> rfl

theorem Value.type_of_negated? {operand value : Value} (negates : operand.negated? = some value) :
    value.type = operand.type ∧ operand.type.isNumeric = true := by
  cases operand <;> cases negates <;> exact ⟨rfl, rfl⟩

theorem Value.combined?_of_dividedBy? {above below value : Value}
    (divides : above.dividedBy? below = some value) :
    above.type.combined? below.type = some value.type := by
  cases above <;> cases below
  all_goals
    simp only [Value.dividedBy?, Value.long?, Value.double?, Option.map_some, Option.map_none,
      Option.some.injEq, Option.ite_none_left_eq_some, reduceCtorEq] at divides
  case int.int | int.long | long.int | long.long =>
    obtain ⟨-, rfl⟩ := divides
    rfl
  all_goals
    subst divides
    rfl

/-- What an expression evaluates to is of its type. -/
theorem Constant.type?_of_value? {constant : Constant} {value : Value}
    (evaluates : constant.value? = some value) : constant.type? = some value.type := by
  induction constant generalizing value with
  | boolean _ | text _ =>
      cases evaluates
      rfl
  | integer magnitude long =>
      rw [value?] at evaluates
      split_ifs at evaluates with inRange
      cases evaluates
      rw [type?, if_pos inRange, Value.type_ofInteger]
  | real digits scale =>
      obtain ⟨rounded, isRounded, rfl⟩ := Option.map_eq_some_iff.1 evaluates
      rw [type?, isRounded]
      rfl
  | enclosed inside inductionHypothesis =>
      exact inductionHypothesis evaluates
  | quotient above below aboveHypothesis belowHypothesis =>
      rw [value?] at evaluates
      cases isAbove : above.value? with
      | none =>
          rw [isAbove] at evaluates
          cases evaluates
      | some aboveValue =>
          cases isBelow : below.value? with
          | none =>
              rw [isAbove, isBelow] at evaluates
              cases evaluates
          | some belowValue =>
              rw [isAbove, isBelow] at evaluates
              rw [type?, aboveHypothesis isAbove, belowHypothesis isBelow]
              exact Value.combined?_of_dividedBy? evaluates
  | negative operand inductionHypothesis =>
      by_cases isInteger : ∃ magnitude long, operand = .integer magnitude long
      · obtain ⟨magnitude, long, rfl⟩ := isInteger
        rw [value?] at evaluates
        split_ifs at evaluates with inRange
        cases evaluates
        rw [type?, if_pos inRange, Value.type_ofInteger]
      · have notInteger : ∀ magnitude long, operand ≠ .integer magnitude long :=
          fun magnitude long same => isInteger ⟨magnitude, long, same⟩
        rw [value?] at evaluates
        · obtain ⟨operandValue, isOperand, negates⟩ := Option.bind_eq_some_iff.1 evaluates
          obtain ⟨sameType, isNumeric⟩ := Value.type_of_negated? negates
          rw [type?, inductionHypothesis isOperand, sameType]
          · exact Option.filter_some_pos isNumeric
          · exact notInteger
        · exact notInteger

end Java

end AheadOfTime
