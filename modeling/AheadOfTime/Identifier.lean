import AheadOfTime.Unicode.Classes

/-!
# Java identifiers

An identifier starts with a letter, an underscore or a dollar sign, goes on
with these and with numbers, and is not a reserved word.  The names of the
primitive types are identifiers here: a type name may consist of one.
-/

namespace AheadOfTime

def reservedWords : List String :=
  ["abstract", "assert", "break", "case", "catch", "class", "const", "continue", "default",
    "do", "else", "enum", "extends", "final", "finally", "for", "goto", "if", "implements",
    "import", "instanceof", "interface", "native", "new", "package", "private", "protected",
    "public", "return", "static", "strictfp", "super", "switch", "synchronized", "this",
    "throw", "throws", "transient", "try", "volatile", "while", "true", "false", "null"]

/-- The names of the primitive types, `void` among them. -/
def primitiveNames : List String :=
  ["boolean", "byte", "char", "short", "int", "long", "float", "double", "void"]

def isIdentifierStart (c : Char) : Bool :=
  Unicode.isAlphabetic c || c == '_' || c == '$'

def isIdentifierPart (c : Char) : Bool :=
  Unicode.isAlphabetic c || Unicode.isNumeric c || c == '_' || c == '$'

def isIdentifierShape : List Char → Bool
  | [] => false
  | first :: rest => isIdentifierStart first && rest.all isIdentifierPart

def isIdentifier (text : String) : Bool :=
  isIdentifierShape text.toList && !reservedWords.contains text

structure Identifier where
  text : String
  -- `decide` would leave an auxiliary lemma behind in each definition that holds a literal.
  valid : isIdentifier text = true := by exact (Eq.refl true : true = true)
  deriving DecidableEq

namespace Identifier

def ofString? (text : String) : Option Identifier :=
  if valid : isIdentifier text = true then some ⟨text, valid⟩ else none

def chars (name : Identifier) : List Char :=
  name.text.toList

theorem ofString?_eq_some_iff {text : String} {name : Identifier} :
    ofString? text = some name ↔ name.text = text := by
  constructor
  · intro found
    unfold ofString? at found
    split at found
    · cases found
      rfl
    · cases found
  · rintro rfl
    simp [ofString?, name.valid]

end Identifier

theorem isIdentifierStart_isIdentifierPart {c : Char}
    (start : isIdentifierStart c = true) : isIdentifierPart c = true := by
  simp only [isIdentifierStart, isIdentifierPart, Bool.or_eq_true] at start ⊢
  rcases start with (alphabetic | underscore) | dollar
  · exact Or.inl (Or.inl (Or.inl alphabetic))
  · exact Or.inl (Or.inr underscore)
  · exact Or.inr dollar

end AheadOfTime
