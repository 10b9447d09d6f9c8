import AheadOfTime.Identifier
import AheadOfTime.Path
import AheadOfTime.Text

/-!
# Type names

A type name is a package, which may be the default one, and a simple name.
Primitive types are simple names in the default package.
-/

namespace AheadOfTime

inductive TypeNameError where
  | empty
  | invalidSegment (segment : String) (name : String)
  deriving DecidableEq

namespace TypeNameError

def message : TypeNameError → String
  | empty => "type name cannot be empty"
  | invalidSegment segment name =>
      "invalid segment '" ++ segment ++ "' in type name '" ++ name ++ "'"

end TypeNameError

/-- A type: the identifiers of its package and its simple name. -/
structure TypeName where
  package : List Identifier
  simple : Identifier
  deriving DecidableEq

namespace TypeName

def segments (type : TypeName) : List Identifier :=
  type.package ++ [type.simple]

def dotted (names : List Identifier) : String :=
  String.ofList (Text.join ['.'] (names.map Identifier.chars))

/-- The package with dots, empty for the default package. -/
def packageText (type : TypeName) : String :=
  dotted type.package

def canonical (type : TypeName) : String :=
  dotted type.segments

/-- The type whose identifiers are `first` and `rest`. -/
def ofSegments (first : Identifier) : List Identifier → TypeName
  | [] => ⟨[], first⟩
  | next :: rest =>
      let inner := ofSegments next rest
      ⟨first :: inner.package, inner.simple⟩

/-- The identifiers that parts of a text are, or the first part that is none. -/
def identify : List (List Char) → Except String (List Identifier)
  | [] => .ok []
  | part :: parts =>
      match Identifier.ofString? (String.ofList part) with
      | none => .error (String.ofList part)
      | some name =>
          match identify parts with
          | .error segment => .error segment
          | .ok names => .ok (name :: names)

/-- Read a dotted name; blanks around it do not count. -/
def parse (text : String) : Except TypeNameError TypeName :=
  let name := Text.trim text.toList
  if name.isEmpty then
    .error .empty
  else
    match identify (Text.split '.' name) with
    | .error segment => .error (.invalidSegment segment (String.ofList name))
    | .ok [] => .error .empty
    | .ok (first :: rest) => .ok (ofSegments first rest)

/-- Read a simple name in a package given as text; no text is the default
package. -/
def parseIn (package simple : String) : Except TypeNameError TypeName :=
  if package.isEmpty then parse simple else parse (package ++ "." ++ simple)

/-- Read a name beside `type`, in the package of `type`. -/
def peer (type : TypeName) (simple : String) : Except TypeNameError TypeName :=
  parseIn type.packageText simple

def langPackage : List Identifier :=
  [{ text := "java" }, { text := "lang" }]

def className : Identifier :=
  { text := "Class" }

def stringName : Identifier :=
  { text := "String" }

/-- The simple name of the mark of a method that overrides another. -/
def overrideName : Identifier :=
  { text := "Override" }

/-- The type of a simple name in the package `java.lang`. -/
def lang (simple : Identifier) : TypeName :=
  ⟨langPackage, simple⟩

def unpackaged (simple : Identifier) : TypeName :=
  ⟨[], simple⟩

/-- Whether a type is `int`, `boolean`, `void` or another primitive. -/
def isPrimitive (type : TypeName) : Bool :=
  type.package.isEmpty && primitiveNames.contains type.simple.text

/-- Whether a type is written without an import: a primitive, or a type of
`java.lang`. -/
def isImplicit (type : TypeName) : Bool :=
  type.isPrimitive || type.package == langPackage

def boxName (primitive : String) : Identifier :=
  if primitive = "boolean" then { text := "Boolean" }
  else if primitive = "byte" then { text := "Byte" }
  else if primitive = "char" then { text := "Character" }
  else if primitive = "short" then { text := "Short" }
  else if primitive = "int" then { text := "Integer" }
  else if primitive = "long" then { text := "Long" }
  else if primitive = "float" then { text := "Float" }
  else if primitive = "double" then { text := "Double" }
  else { text := "Void" }

def boxed (type : TypeName) : TypeName :=
  if type.isPrimitive then lang (boxName type.simple.text) else type

def sourcePath (type : TypeName) : Path :=
  Path.ofNames (type.package.map Identifier.text ++ [type.simple.text ++ ".java"])

end TypeName

end AheadOfTime
