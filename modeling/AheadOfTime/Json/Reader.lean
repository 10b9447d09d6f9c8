import AheadOfTime.Document

/-!
# Reading JSON

The strict grammar: no comments, no trailing commas, no control characters inside
texts, and at most 127 containers inside one another.  A whole number outside 64
bits is read as a binary number; a number too large for that is refused.
-/

namespace AheadOfTime.Json

def skipBlank (text : List Char) : List Char :=
  text.dropWhile fun c => c == ' ' || c == '\n' || c == '\t' || c == '\r'

def hexValue? (c : Char) : Option Nat :=
  if '0' ≤ c ∧ c ≤ '9' then some (c.toNat - '0'.toNat)
  else if 'a' ≤ c ∧ c ≤ 'f' then some (c.toNat - 'a'.toNat + 10)
  else if 'A' ≤ c ∧ c ≤ 'F' then some (c.toNat - 'A'.toNat + 10)
  else none

/-- The number that four hexadecimal digits write. -/
def fourHex? : List Char → Option (Nat × List Char)
  | a :: b :: c :: d :: rest => do
      let a ← hexValue? a
      let b ← hexValue? b
      let c ← hexValue? c
      let d ← hexValue? d
      return (((a * 16 + b) * 16 + c) * 16 + d, rest)
  | _ => none

/-- The character of a code unit, or of a pair of surrogates. -/
def unicodeEscape? (text : List Char) : Option (Char × List Char) := do
  let (unit, rest) ← fourHex? text
  if 0xD800 ≤ unit ∧ unit < 0xDC00 then
    match rest with
    | '\\' :: 'u' :: rest => do
        let (low, rest) ← fourHex? rest
        if 0xDC00 ≤ low ∧ low < 0xE000 then
          return (Char.ofNat (0x10000 + (unit - 0xD800) * 0x400 + (low - 0xDC00)), rest)
        else
          none
    | _ => none
  else if 0xDC00 ≤ unit ∧ unit < 0xE000 then
    none
  else
    return (Char.ofNat unit, rest)

def escape? : List Char → Option (Char × List Char)
  | '"' :: rest => some ('"', rest)
  | '\\' :: rest => some ('\\', rest)
  | '/' :: rest => some ('/', rest)
  | 'b' :: rest => some ('\x08', rest)
  | 'f' :: rest => some ('\x0c', rest)
  | 'n' :: rest => some ('\n', rest)
  | 'r' :: rest => some ('\r', rest)
  | 't' :: rest => some ('\t', rest)
  | 'u' :: rest => unicodeEscape? rest
  | _ => none

/-- The characters of a text up to its closing quote. Each step uses up at least
one character, so `steps` need not exceed the length. -/
def textEnd? : (steps : Nat) → List Char → Option (List Char × List Char)
  | 0, _ => none
  | _ + 1, [] => none
  | _ + 1, '"' :: rest => some ([], rest)
  | steps + 1, '\\' :: rest => do
      let (c, rest) ← escape? rest
      let (chars, rest) ← textEnd? steps rest
      return (c :: chars, rest)
  | steps + 1, c :: rest =>
      if c.toNat < 0x20 then none else do
        let (chars, rest) ← textEnd? steps rest
        return (c :: chars, rest)

def quotedText? : List Char → Option (String × List Char)
  | '"' :: rest => do
      let (chars, rest) ← textEnd? (rest.length + 1) rest
      return (String.ofList chars, rest)
  | _ => none

def digitValue (c : Char) : Nat :=
  c.toNat - '0'.toNat

def digits (text : List Char) : List Char × List Char :=
  (text.takeWhile Char.isDigit, text.dropWhile Char.isDigit)

/-- Take up the digits of a whole number while 64 bits hold them. The second
result counts the digits left out. -/
def takeWhole (significand : Nat) : List Char → Nat × Nat
  | [] => (significand, 0)
  | digit :: rest =>
      let next := significand * 10 + digitValue digit
      if next < Nat.pow 2 64 then takeWhole next rest else (significand, rest.length + 1)

/-- Take up the digits after the point while 64 bits hold them; the other digits
do not count. The second result is the power of ten. -/
def takeFraction (significand : Nat) (exponent : Int) : List Char → Nat × Int
  | [] => (significand, exponent)
  | digit :: rest =>
      let next := significand * 10 + digitValue digit
      if next < Nat.pow 2 64 then takeFraction next (exponent - 1) rest else (significand, exponent)

/-- Scale a number by a power of ten: one multiplication or division by the power,
after divisions by `10 ^ 308` as long as the power is below `-308`. A result that is
not finite is refused. -/
def scale? (value : Binary64) : (steps : Nat) → (exponent : Int) → Option Binary64
  | 0, _ => some value
  | steps + 1, exponent =>
      let power : Binary64 := .ofDecimal false 1 exponent.natAbs
      if exponent.natAbs ≤ 308 then
        if 0 ≤ exponent then
          let product := value.timesMagnitude power
          if product.isInfinite then none else some product
        else
          some (value.overMagnitude power)
      else if value.isZero then
        some value
      else if 0 ≤ exponent then
        none
      else
        scale? (value.overMagnitude (.ofDecimal false 1 308)) steps (exponent + 308)

/-- The number `significand * 10 ^ exponent`. -/
def real? (negative : Bool) (significand : Nat) (exponent : Int) : Option Document := do
  let value ← scale? (.ofNat false significand) 8 exponent
  return .real (value.withSign negative)

/-- A whole number: exact when 64 bits hold it. Minus zero and numbers below the
least integer are binary numbers. -/
def wholeNumber (negative : Bool) (significand : Nat) : Document :=
  if !negative then .integer significand
  else if significand = 0 ∨ Nat.pow 2 63 < significand then .real (.ofNat true significand)
  else .integer (-significand)

/-- An exponent beyond 32 bits: a number other than zero is too large, or it is
zero. -/
def hugeExponent? (negative : Bool) (significand : Nat) (down : Bool) : Option Document :=
  if significand ≠ 0 && !down then none
  else some (.real ((Binary64.ofNat false 0).withSign negative))

/-- The number with an exponent part, after its `e`. -/
def withExponent? (negative : Bool) (significand : Nat) (start : Int) (text : List Char) :
    Option (Document × List Char) := do
  let (down, text) := match text with
    | '+' :: rest => (false, rest)
    | '-' :: rest => (true, rest)
    | _ => (false, text)
  let (power, rest) := digits text
  if power.isEmpty then
    none
  else
    let size := power.foldl (fun size digit => size * 10 + digitValue digit) 0
    let value ←
      if Nat.pow 2 31 ≤ size then
        hugeExponent? negative significand down
      else
        real? negative significand (if down then start - size else start + size)
    return (value, rest)

def number? (negative : Bool) (text : List Char) : Option (Document × List Char) := do
  let (whole, rest) := digits text
  if whole.isEmpty || (whole.head? == some '0' && 1 < whole.length) then
    none
  else
    let (significand, left) := takeWhole 0 whole
    match rest with
    | '.' :: rest =>
        let (fraction, rest) := digits rest
        if fraction.isEmpty then
          none
        else
          let (significand, exponent) := takeFraction significand left fraction
          match rest with
          | 'e' :: rest | 'E' :: rest => withExponent? negative significand exponent rest
          | _ => return (← real? negative significand exponent, rest)
    | 'e' :: rest | 'E' :: rest => withExponent? negative significand left rest
    | _ =>
        if left = 0 then
          return (wholeNumber negative significand, rest)
        else
          return (← real? negative significand left, rest)

/-- The number of containers inside one another that are still read, the next one
not included. -/
def depthLimit : Nat := 127

mutual

/-- A value. At most three steps are taken for each character, so `steps` need not
exceed three times the length; `depth` is the number of containers still
allowed. -/
def value? : (steps depth : Nat) → List Char → Option (Document × List Char)
  | 0, _, _ => none
  | steps + 1, depth, input =>
      match skipBlank input with
      | 'n' :: 'u' :: 'l' :: 'l' :: rest => some (.null, rest)
      | 't' :: 'r' :: 'u' :: 'e' :: rest => some (.boolean true, rest)
      | 'f' :: 'a' :: 'l' :: 's' :: 'e' :: rest => some (.boolean false, rest)
      | '-' :: rest => number? true rest
      | '"' :: rest => do
          let (chars, rest) ← quotedText? ('"' :: rest)
          return (.text chars, rest)
      | '[' :: rest =>
          match depth with
          | 0 => none
          | depth + 1 => do
              let (items, rest) ← items? steps depth true rest
              return (.sequence items, rest)
      | '\x7b' :: rest =>
          match depth with
          | 0 => none
          | depth + 1 => do
              let (entries, rest) ← entries? steps depth true rest
              return (.mapping entries, rest)
      | rest => number? false rest

/-- The items of a sequence up to its closing bracket; `first` before the first
one. -/
def items? : (steps depth : Nat) → (first : Bool) → List Char →
    Option (List Document × List Char)
  | 0, _, _, _ => none
  | steps + 1, depth, first, input =>
      match first, skipBlank input with
      | _, ']' :: rest => some ([], rest)
      | false, ',' :: rest => item? steps depth rest
      | false, _ => none
      | true, rest => item? steps depth rest

def item? : (steps depth : Nat) → List Char → Option (List Document × List Char)
  | 0, _, _ => none
  | steps + 1, depth, input => do
      let (item, rest) ← value? steps depth input
      let (items, rest) ← items? steps depth false rest
      return (item :: items, rest)

/-- The entries of a mapping up to its closing brace; `first` before the first
one. -/
def entries? : (steps depth : Nat) → (first : Bool) → List Char →
    Option (List (String × Document) × List Char)
  | 0, _, _, _ => none
  | steps + 1, depth, first, input =>
      match first, skipBlank input with
      | _, '\x7d' :: rest => some ([], rest)
      | false, ',' :: rest => entry? steps depth rest
      | false, _ => none
      | true, rest => entry? steps depth rest

def entry? : (steps depth : Nat) → List Char →
    Option (List (String × Document) × List Char)
  | 0, _, _ => none
  | steps + 1, depth, input => do
      let (key, rest) ← quotedText? (skipBlank input)
      match skipBlank rest with
      | ':' :: rest => do
          let (value, rest) ← value? steps depth rest
          let (entries, rest) ← entries? steps depth false rest
          return ((key, value) :: entries, rest)
      | _ => none

end

def read? (input : String) : Option Document := do
  let chars := input.toList
  let (document, rest) ← value? (3 * chars.length + 3) depthLimit chars
  if (skipBlank rest).isEmpty then return document else none

end AheadOfTime.Json
