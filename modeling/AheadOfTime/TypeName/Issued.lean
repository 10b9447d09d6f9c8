import AheadOfTime.TypeName

/-!
# Issuing fresh type names

A generated type is named after a base type and a feature: `Base__Feature`, and
when that is taken `Base__Feature$2`, `Base__Feature$3` and so on.  Each stem
remembers the number it reached, so a later request goes on from there.
-/

namespace AheadOfTime

/-- The names issued so far, and the number that each stem reached. -/
structure IssuedNames where
  names : List TypeName
  counters : List (String × Nat)

namespace IssuedNames

def empty : IssuedNames :=
  ⟨[], []⟩

def has (issued : IssuedNames) (name : TypeName) : Bool :=
  issued.names.contains name

def size (issued : IssuedNames) : Nat :=
  issued.names.length

/-- The text between a base name and a feature. -/
def featureSeparator : String := "__"

/-- The simple name of the first type that stands for a feature of `base`. -/
def stem (base : TypeName) (feature : String) : String :=
  base.simple.text ++ featureSeparator ++ feature

/-- What a stem's number is kept under: the package and the stem, as text. -/
def counterKey (base : TypeName) (feature : String) : String :=
  base.packageText ++ "." ++ stem base feature

def counter (issued : IssuedNames) (key : String) : Nat :=
  (issued.counters.lookup key).getD 0

/-- The numbers after the stem of `key` reached `count`. -/
def setCounter (key : String) (count : Nat) :
    List (String × Nat) → List (String × Nat)
  | [] => [(key, count)]
  | (known, reached) :: rest =>
      if known = key then
        (key, count) :: rest
      else
        (known, reached) :: setCounter key count rest

/-- The simple name numbered `number`: the stem itself is the first. -/
def numbered (base : TypeName) (feature : String) (number : Nat) : String :=
  if number = 1 then
    stem base feature
  else
    stem base feature ++ "$" ++ toString number

/-- The type numbered `number`, beside the base type. -/
def candidate (base : TypeName) (feature : String) (number : Nat) :
    Except TypeNameError TypeName :=
  base.peer (numbered base feature number)

/-- The first free candidate after `reached`, with the number it has. A candidate
that is no name ends the search. Of `tries + 1` different candidates one is free
when only `tries` names are taken. -/
def search (taken : List TypeName) (candidates : Nat → Except TypeNameError TypeName) :
    (tries reached : Nat) → Except TypeNameError TypeName × Nat
  | 0, reached => (candidates (reached + 1), reached + 1)
  | tries + 1, reached =>
      match candidates (reached + 1) with
      | .error error => (.error error, reached + 1)
      | .ok name =>
          if taken.contains name then
            search taken candidates tries (reached + 1)
          else
            (.ok name, reached + 1)

/-- Issue a fresh name for a feature of `base`. A request that fails issues
nothing, but uses up its number. -/
def issue (issued : IssuedNames) (base : TypeName) (feature : String) :
    Except TypeNameError TypeName × IssuedNames :=
  let key := counterKey base feature
  let (found, reached) :=
    search issued.names (candidate base feature) issued.size (issued.counter key)
  let counters := setCounter key reached issued.counters
  match found with
  | .error error => (.error error, ⟨issued.names, counters⟩)
  | .ok name => (.ok name, ⟨issued.names ++ [name], counters⟩)

end IssuedNames

end AheadOfTime
