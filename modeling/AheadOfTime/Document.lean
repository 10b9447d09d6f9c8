import AheadOfTime.Binary64.Shortest

/-!
# Documents

The values that JSON and TOML texts stand for.  A mapping keeps its entries in
the order in which they are written, a key that is written twice included.

As JSON text a document is written over several lines: each item of a sequence and each entry
of a mapping stands on a line of its own, two blanks deeper than its container.
-/

namespace AheadOfTime

/-- A value read from a text, or to be written as one. -/
inductive Document where
  | null
  | boolean (value : Bool)
  | integer (value : Int)
  | real (value : Binary64)
  | text (value : String)
  | sequence (items : List Document)
  | mapping (entries : List (String × Document))
  deriving Inhabited

namespace Json

def hexDigit (value : Nat) : Char :=
  (Nat.toDigits 16 value).headD '0'

def quotedChar (c : Char) : List Char :=
  if c = '"' then ['\\', '"']
  else if c = '\\' then ['\\', '\\']
  else if c = '\n' then ['\\', 'n']
  else if c = '\r' then ['\\', 'r']
  else if c = '\t' then ['\\', 't']
  else if c = '\x08' then ['\\', 'b']
  else if c = '\x0c' then ['\\', 'f']
  else if c.toNat < 0x20 then
    ['\\', 'u', '0', '0', hexDigit (c.toNat / 16), hexDigit (c.toNat % 16)]
  else [c]

def quoted (text : String) : List Char :=
  '"' :: text.toList.flatMap quotedChar ++ ['"']

def lineStart (depth : Nat) : List Char :=
  '\n' :: List.replicate (2 * depth) ' '

/-- How a number is written: as few digits as read back, a power of ten for the
very large and the very small. -/
def numberLayout : Binary64.Layout :=
  ⟨some (-4), some 16, true, false⟩

mutual

def pretty (depth : Nat) : Document → List Char
  | .null => "null".toList
  | .boolean value => (toString value).toList
  | .integer value => (toString value).toList
  | .real value => (numberLayout.write value).toList
  | .text value => quoted value
  | .sequence [] => ['[', ']']
  | .sequence (item :: items) =>
      '[' :: lineStart (depth + 1) ++ pretty (depth + 1) item ++
        prettyItems (depth + 1) items ++ lineStart depth ++ [']']
  | .mapping [] => ['\x7b', '\x7d']
  | .mapping (entry :: entries) =>
      '\x7b' :: lineStart (depth + 1) ++ prettyEntry (depth + 1) entry ++
        prettyEntries (depth + 1) entries ++ lineStart depth ++ ['\x7d']

def prettyItems (depth : Nat) : List Document → List Char
  | [] => []
  | item :: items =>
      ',' :: lineStart depth ++ pretty depth item ++ prettyItems depth items

def prettyEntry (depth : Nat) : String × Document → List Char
  | (key, value) => quoted key ++ [':', ' '] ++ pretty depth value

def prettyEntries (depth : Nat) : List (String × Document) → List Char
  | [] => []
  | entry :: entries =>
      ',' :: lineStart depth ++ prettyEntry depth entry ++ prettyEntries depth entries

end

/-- The text of a file that holds a document: it ends with a line feed. -/
def fileText (document : Document) : String :=
  String.ofList (pretty 0 document ++ ['\n'])

end Json

end AheadOfTime
