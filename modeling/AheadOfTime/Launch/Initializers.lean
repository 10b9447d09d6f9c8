import AheadOfTime.Generation
import AheadOfTime.Sha256
import AheadOfTime.Unicode.Visible

/-!
# Known initializers

A launcher finds the initializer of an application under a key that depends on the
name of the application only.
-/

namespace AheadOfTime

namespace TypeName

def initializerKey (application : TypeName) : String :=
  Sha256.hexDigest application.canonical

def initializerName (application : TypeName) : Except TypeNameError TypeName :=
  (IssuedNames.empty.issue application Draft.initializerFeature).1

end TypeName

/-- What makes initializers, under the keys of their applications. -/
structure Initializers (α : Type) where
  makers : List (String × (Unit → α))

namespace Initializers

def empty : Initializers α :=
  ⟨[]⟩

def size (initializers : Initializers α) : Nat :=
  initializers.makers.length

def createByKey? (initializers : Initializers α) (key : String) : Option α :=
  (initializers.makers.lookup key).map fun make => make ()

def create? (initializers : Initializers α) (application : TypeName) : Option α :=
  initializers.createByKey? application.initializerKey

def contains (initializers : Initializers α) (application : TypeName) : Bool :=
  (initializers.makers.lookup application.initializerKey).isSome

/-- Make the initializer of an application known. It takes the place of the one known
before. -/
def register (initializers : Initializers α) (application : TypeName) (make : Unit → α) :
    Initializers α :=
  let key := application.initializerKey
  ⟨(key, make) :: initializers.makers.filter fun known => known.1 != key⟩

/-- The keys, ascending. -/
def keys (initializers : Initializers α) : List String :=
  (initializers.makers.map Prod.fst).mergeSort fun left right => decide (left ≤ right)

/-- What is shown of the known initializers: their keys. -/
def display (initializers : Initializers α) : String :=
  "InitializerRegistry \x7b keys: [" ++
    ", ".intercalate (initializers.keys.map Text.shown) ++ "] \x7d"

end Initializers

end AheadOfTime
