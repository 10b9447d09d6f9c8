import AheadOfTime.Proofs.Java.TextLiterals

/-!
# Properties files

The lines of a properties file are joined where a backslash ends them.  Comments and blank
lines are left out, and every other line is a key and a value, in which a backslash begins an
escape.  The reader refuses escapes that stand for no character; what it does not refuse, it
reads as Java reads it.

A line that is spread over several ones without another backslash in it is read as one line,
whatever it says.
-/

namespace AheadOfTime.Java.Properties

def isSpace (c : Char) : Bool :=
  c == ' ' || c == '\t' || c == '\x0c'

def endsLine (c : Char) : Bool :=
  c == '\n' || c == '\r'

/-- The lines as they stand. A line feed ends a line, a return does, or both together. -/
def naturalLines : List Char → List (List Char)
  | [] => [[]]
  | '\r' :: '\n' :: rest => [] :: naturalLines rest
  | c :: rest =>
      if endsLine c then [] :: naturalLines rest
      else (naturalLines rest).modifyHead (c :: ·)

/-- Whether the next line belongs to a line: an odd number of backslashes ends it. -/
def goesOn (line : List Char) : Bool :=
  (line.reverse.takeWhile (· == '\\')).length % 2 == 1

def isComment (line : List Char) : Bool :=
  line.head? == some '#' || line.head? == some '!'

/-- The lines that others are joined to, without the white space that these begin with. What
the lines before have begun is given, if the last of them goes on. -/
def logicalLines : Option (List Char) → List (List Char) → List (List Char)
  | begun, [] => begun.toList
  | begun, line :: rest =>
      let bare := line.dropWhile isSpace
      if begun.isNone && isComment bare then
        logicalLines none rest
      else if goesOn bare then
        logicalLines (some (begun.getD [] ++ bare.dropLast)) rest
      else
        (begun.getD [] ++ bare) :: logicalLines none rest

def isSeparator (c : Char) : Bool :=
  c == '=' || c == ':'

/-- The key of a line, and what comes after it. An escaped character does not end the key. -/
def splitKey : List Char → List Char × List Char
  | [] => ([], [])
  | '\\' :: c :: rest => ('\\' :: c :: (splitKey rest).1, (splitKey rest).2)
  | c :: rest =>
      if isSpace c || isSeparator c then ([], c :: rest)
      else (c :: (splitKey rest).1, (splitKey rest).2)

def valueOf (afterKey : List Char) : List Char :=
  match afterKey.dropWhile isSpace with
  | [] => []
  | c :: rest => if isSeparator c then rest.dropWhile isSpace else c :: rest

def unescaped (c : Char) : Char :=
  if c = 't' then '\t'
  else if c = 'n' then '\n'
  else if c = 'r' then '\r'
  else if c = 'f' then '\x0c'
  else c

/-- The code units that a text with escapes stands for. -/
def unescape? : List Char → Option (List Nat)
  | [] => some []
  | ['\\'] => some []
  | '\\' :: 'u' :: a :: b :: c :: d :: rest =>
      match Json.fourHex? [a, b, c, d] with
      | some (unit, _) => (unescape? rest).map (unit :: ·)
      | none => none
  | '\\' :: 'u' :: _ => none
  | '\\' :: c :: rest => (unescape? rest).map (codeUnits (unescaped c) ++ ·)
  | c :: rest => (unescape? rest).map (codeUnits c ++ ·)

def text? (escaped : List Char) : Option String :=
  ((unescape? escaped).bind decodeUnits?).map String.ofList

def property? (line : List Char) : Option (String × String) := do
  let key ← text? (splitKey line).1
  let value ← text? (valueOf (splitKey line).2)
  return (key, value)

/-- The properties of a file, in order. -/
def read? (file : String) : Option (List (String × String)) :=
  ((logicalLines none (naturalLines file.toList)).filter fun line => !line.isEmpty).mapM property?

example : read? "# c\n  a\\ b : 1\\\r\n \t2\\u00e9\\\\\r! \\\n\nkey" =
    some [("a b", "12é\\"), ("key", "")] := by
  decide +kernel

/-- Whether a line stands for itself in a file: it begins with no white space, nothing in it ends
it, and it has no backslash. -/
structure IsBare (line : List Char) : Prop where
  begins : ∃ first rest, line = first :: rest ∧ isSpace first = false
  whole : ∀ c ∈ line, endsLine c = false
  plain : '\\' ∉ line

namespace IsBare

variable {line : List Char} (bare : IsBare line)

include bare

theorem append {rest : List Char} (whole : ∀ c ∈ rest, endsLine c = false)
    (plain : '\\' ∉ rest) : IsBare (line ++ rest) := by
  obtain ⟨first, others, rfl, visible⟩ := bare.begins
  refine ⟨⟨first, others ++ rest, rfl, visible⟩,
    List.forall_mem_append.2 ⟨bare.whole, whole⟩, ?_⟩
  rw [List.mem_append, not_or]
  exact ⟨bare.plain, plain⟩

end IsBare

/-- What stands between two parts of a line that is spread over several ones. -/
def between : List Char :=
  [' ', '\\', '\n']

end AheadOfTime.Java.Properties
