import AheadOfTime.Binary64.Shortest
import AheadOfTime.Unicode.Visible
import AheadOfTime.TypeName

/-!
# Literals

A literal is a value that is known when code is generated.
-/

namespace AheadOfTime

/-- A value written into a graph. -/
inductive Literal where
  | boolean (value : Bool)
  | integer (value : Int64)
  | real (value : Binary64)
  | text (value : String)
  deriving DecidableEq

namespace Literal

/-- Whether an integer fits into 32 bits. -/
def isShort (value : Int64) : Bool :=
  Int32.minValue.toInt ≤ value.toInt && value.toInt ≤ Int32.maxValue.toInt

def type : Literal → TypeName
  | boolean _ => .unpackaged { text := "boolean" }
  | integer value =>
      .unpackaged (if isShort value then { text := "int" } else { text := "long" })
  | real _ => .unpackaged { text := "double" }
  | text _ => .lang TypeName.stringName

/-- A real literal in full: the fewest digits that read back, a power of ten from
`1e16` on and below `1e-4`. -/
def fullLayout : Binary64.Layout :=
  ⟨some (-3), some 16, true, true⟩

/-- A real literal as shown: never with a power of ten. -/
def shownLayout : Binary64.Layout :=
  ⟨none, none, false, true⟩

/-- The value of a literal as text. -/
def fullText : Literal → String
  | boolean value => toString value
  | integer value => toString value.toInt
  | real value => fullLayout.write value
  | text value => value

def display : Literal → String
  | boolean value => toString value
  | integer value => toString value.toInt
  | real value => shownLayout.write value
  | text value => Text.shown value

end Literal

end AheadOfTime
