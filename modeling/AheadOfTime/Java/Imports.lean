import AheadOfTime.TypeName

/-!
# Imports and the spelling of types

In a source file the first type that claims a simple name is written with it, and
later types of that simple name are written in full.  A type of the file's own
package hides a type of `java.lang`, so it takes the simple name over from one.
-/

namespace AheadOfTime.Java

/-- The types that own their simple names in the file of `unit`. -/
structure Imports where
  unit : TypeName
  owners : List TypeName

namespace Imports

/-- The imports of a file whose type is `unit`; it owns its simple name. -/
def start (unit : TypeName) : Imports :=
  ⟨unit, [unit]⟩

def ownerOf? (imports : Imports) (simple : Identifier) : Option TypeName :=
  imports.owners.find? fun owner => owner.simple == simple

def hides (imports : Imports) (type owner : TypeName) : Bool :=
  type.package == imports.unit.package && owner.package == TypeName.langPackage && owner != type

def claim (imports : Imports) (type : TypeName) : Imports :=
  if type.isPrimitive then
    imports
  else
    match imports.ownerOf? type.simple with
    | none => { imports with owners := imports.owners ++ [type] }
    | some owner =>
        if imports.hides type owner then
          { imports with
            owners := imports.owners.map fun known => if known = owner then type else known }
        else
          imports

def claimAll (imports : Imports) (types : List TypeName) : Imports :=
  types.foldl claim imports

def spelling (imports : Imports) (type : TypeName) : String :=
  if type.isPrimitive then
    type.simple.text
  else
    match imports.ownerOf? type.simple with
    | some owner => if owner = type then type.simple.text else type.canonical
    | none => if type.isImplicit then type.simple.text else type.canonical

def needsImport (imports : Imports) (owner : TypeName) : Bool :=
  !owner.isImplicit && owner.package != imports.unit.package

/-- The imported types, ascending. -/
def declarations (imports : Imports) : List String :=
  ((imports.owners.filter imports.needsImport).map TypeName.canonical).mergeSort
    fun left right => decide (left ≤ right)

end Imports

/-- An occurrence of a type in source: the type that is meant and how it is
written. -/
structure TypeUse where
  type : TypeName
  spelling : String
  deriving DecidableEq

namespace Imports

def use (imports : Imports) (type : TypeName) : TypeUse :=
  ⟨type, imports.spelling type⟩

/-- An occurrence of a type of `java.lang`. -/
def useLang (imports : Imports) (simple : Identifier) : TypeUse :=
  imports.use (.lang simple)

end Imports

end AheadOfTime.Java
