import AheadOfTime.Literal
import AheadOfTime.Unicode.Uppercase

/-!
# Java expressions

Literals as Java source.  The text is printable ASCII, whatever the value is.
-/

namespace AheadOfTime.Java

/-- A hexadecimal digit of a number below sixteen. -/
def hexDigit (value : Nat) : Char :=
  (Nat.toDigits 16 value).headD '0'

/-- A code unit of sixteen bits as an escape with four hexadecimal digits. -/
def unitEscape (unit : Nat) : List Char :=
  ['\\', 'u', hexDigit (unit / 0x1000 % 16), hexDigit (unit / 0x100 % 16),
    hexDigit (unit / 0x10 % 16), hexDigit (unit % 16)]

def codeUnits (c : Char) : List Nat :=
  if c.toNat < 0x10000 then
    [c.toNat]
  else
    [0xD800 + (c.toNat - 0x10000) / 0x400, 0xDC00 + (c.toNat - 0x10000) % 0x400]

def literalChar (c : Char) : List Char :=
  if c = '"' then ['\\', '"']
  else if c = '\\' then ['\\', '\\']
  else if c = '\n' then ['\\', 'n']
  else if c = '\r' then ['\\', 'r']
  else if c = '\t' then ['\\', 't']
  else if c = '\x08' then ['\\', 'b']
  else if c = '\x0c' then ['\\', 'f']
  else if 0x20 ≤ c.toNat ∧ c.toNat < 0x7F then [c]
  else (codeUnits c).flatMap unitEscape

def stringLiteral (text : String) : String :=
  String.ofList ('"' :: text.toList.flatMap literalChar ++ ['"'])

/-- A real number. Values without a literal are quotients of literals. -/
def realLiteral (value : Binary64) : String :=
  match value with
  | .nan => "(0.0d / 0.0)"
  | .infinite false => "(1.0d / 0.0)"
  | .infinite true => "(-1.0d / 0.0)"
  | .finite .. => Literal.fullLayout.write value

def literal : Literal → String
  | .boolean value => toString value
  | .integer value =>
      if Literal.isShort value then toString value.toInt else toString value.toInt ++ "L"
  | .real value => realLiteral value
  | .text value => stringLiteral value

def setterName (property : String) : String :=
  match property.toList with
  | [] => "set"
  | first :: rest => "set" ++ String.ofList (Unicode.toUppercase first ++ rest)

end AheadOfTime.Java
