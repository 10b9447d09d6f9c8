import AheadOfTime.Java.Expression
import AheadOfTime.Json.Reader
import Mathlib.Data.List.Basic

/-!
# The lexical rules of Java

Source is read in two steps.  Unicode escapes are replaced by code units first; what is
left is divided into comments, text literals and other code units.  The reader refuses
what generated source has no use for: character literals, text blocks and octal escapes.
Where it does not refuse, it reads what Java reads.
-/

namespace AheadOfTime.Java

def encodeUnits (chars : List Char) : List Nat :=
  chars.flatMap codeUnits

def isHighSurrogate (unit : Nat) : Bool :=
  0xD800 ≤ unit && unit < 0xDC00

def isLowSurrogate (unit : Nat) : Bool :=
  0xDC00 ≤ unit && unit < 0xE000

/-- The characters that code units encode. A high surrogate stands for a character only
together with the low one after it. -/
def decodeUnits? : List Nat → Option (List Char)
  | [] => some []
  | [unit] =>
      if isHighSurrogate unit || isLowSurrogate unit then none else some [Char.ofNat unit]
  | unit :: next :: rest =>
      if isHighSurrogate unit && isLowSurrogate next then
        (decodeUnits? rest).map
          (Char.ofNat (0x10000 + (unit - 0xD800) * 0x400 + (next - 0xDC00)) :: ·)
      else if isHighSurrogate unit || isLowSurrogate unit then
        none
      else
        (decodeUnits? (next :: rest)).map (Char.ofNat unit :: ·)

/-- A code unit of source, and whether a Unicode escape stands for it. -/
structure InputUnit where
  code : Nat
  escaped : Bool
  deriving DecidableEq

namespace InputUnit

def raw (code : Nat) : InputUnit :=
  ⟨code, false⟩

end InputUnit

/-- What comes before the rest of a source: an even or an odd number of backslashes in a
row, or the backslash and the mark of a Unicode escape. -/
inductive EscapeState where
  | even
  | odd
  | marked
  deriving DecidableEq

/-- Replace the Unicode escapes of a source. Only a backslash after an even number of
others begins one, and the mark of an escape may be repeated. -/
def translate? : EscapeState → List Char → Option (List InputUnit)
  | .marked, 'u' :: rest => translate? .marked rest
  | .marked, a :: b :: c :: d :: rest =>
      match Json.fourHex? [a, b, c, d] with
      | some (unit, _) => (translate? .even rest).map (⟨unit, true⟩ :: ·)
      | none => none
  | .marked, _ => none
  | .even, '\\' :: 'u' :: rest => translate? .marked rest
  | .even, '\\' :: rest => (translate? .odd rest).map (.raw '\\'.toNat :: ·)
  | .even, c :: rest => (translate? .even rest).map ((codeUnits c).map .raw ++ ·)
  | .odd, c :: rest => (translate? .even rest).map ((codeUnits c).map .raw ++ ·)
  | .even, [] => some []
  | .odd, [] => some []

/-- A part of source: a text literal with its value, or a code unit that is in none.
Comments are no part of it. -/
inductive Element where
  | text (value : List Nat)
  | unit (code : Nat)
  deriving DecidableEq

/-- Where the reading of source stands: in code, after a slash that may begin a comment,
in a comment, after a star that may end it, in a comment up to the end of the line, after
the quote that opens a text, in a text, after a backslash in it, or after two quotes. -/
inductive Mode where
  | code
  | slash
  | comment
  | star
  | lineComment
  | opened
  | text (value : List Nat)
  | escape (value : List Nat)
  | closed
  deriving DecidableEq

def isLineEnd (unit : Nat) : Bool :=
  unit == '\n'.toNat || unit == '\r'.toNat

def escapeValue? (unit : Nat) : Option Nat :=
  if unit = 'b'.toNat then some 0x08
  else if unit = 't'.toNat then some '\t'.toNat
  else if unit = 'n'.toNat then some '\n'.toNat
  else if unit = 'f'.toNat then some 0x0C
  else if unit = 'r'.toNat then some '\r'.toNat
  else if unit = 's'.toNat then some ' '.toNat
  else if unit = '"'.toNat then some '"'.toNat
  else if unit = '\''.toNat then some '\''.toNat
  else if unit = '\\'.toNat then some '\\'.toNat
  else none

namespace Mode

def inCode (unit : Nat) : Option (List Element × Mode) :=
  if unit = '"'.toNat then some ([], opened)
  else if unit = '/'.toNat then some ([], slash)
  else if unit = '\''.toNat then none
  else some ([.unit unit], code)

def inText (value : List Nat) (unit : Nat) : Option (List Element × Mode) :=
  if unit = '"'.toNat then some ([.text value], code)
  else if unit = '\\'.toNat then some ([], escape value)
  else if isLineEnd unit then none
  else some ([], text (value ++ [unit]))

def next : Mode → Nat → Option (List Element × Mode)
  | code, unit => inCode unit
  | slash, unit =>
      if unit = '*'.toNat then some ([], comment)
      else if unit = '/'.toNat then some ([], lineComment)
      else (inCode unit).map fun (elements, mode) => (.unit '/'.toNat :: elements, mode)
  | comment, unit => some ([], if unit = '*'.toNat then star else comment)
  | star, unit =>
      some ([], if unit = '/'.toNat then code else if unit = '*'.toNat then star else comment)
  | lineComment, unit => some ([], if isLineEnd unit then code else lineComment)
  | opened, unit => if unit = '"'.toNat then some ([], closed) else inText [] unit
  | text value, unit => inText value unit
  | escape value, unit =>
      (escapeValue? unit).map fun escaped => ([], text (value ++ [escaped]))
  | closed, unit =>
      if unit = '"'.toNat then none
      else (inCode unit).map fun (elements, mode) => (.text [] :: elements, mode)

/-- The elements that the end of the source completes. -/
def finish : Mode → Option (List Element)
  | code => some []
  | slash => some [.unit '/'.toNat]
  | lineComment => some []
  | closed => some [.text []]
  | comment | star | opened | text _ | escape _ => none

def elements? : Mode → List Nat → Option (List Element)
  | mode, [] => mode.finish
  | mode, unit :: rest =>
      match mode.next unit with
      | none => none
      | some (completed, after) => (elements? after rest).map (completed ++ ·)

end Mode

def readSource? (source : List Char) : Option (List Element) :=
  match translate? .even source with
  | none => none
  | some units => Mode.elements? .code (units.map InputUnit.code)

end AheadOfTime.Java
