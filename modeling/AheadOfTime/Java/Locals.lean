import AheadOfTime.Identifier

/-!
# Local variables

Every bean gets a local variable named after it.  Bean names are arbitrary texts,
so the name is made of the letters and digits in it, and numbered when another
bean has it already.
-/

namespace AheadOfTime.Java

/-- The names taken in a scope. -/
structure Locals where
  taken : List String

namespace Locals

/-- A character that names of local variables are made of. -/
def isNameChar (c : Char) : Bool :=
  c.isAlphanum || c == '_'

/-- The usable characters of a text in camel case: a character after skipped ones is
upper case, the first one of all is lower case. -/
def camelCase : (started skipped : Bool) → List Char → List Char
  | _, _, [] => []
  | started, skipped, c :: rest =>
      if isNameChar c then
        let written :=
          if !started then c.toLower else if skipped then c.toUpper else c
        written :: camelCase true false rest
      else
        camelCase started true rest

def baseName (bean : String) : String :=
  match camelCase false false bean.toList with
  | [] => "bean"
  | first :: rest =>
      let name := String.ofList (first :: rest)
      let name := if first.isDigit then "bean" ++ name else name
      if isIdentifier name then name else name ++ "Bean"

/-- A base name with a number, the first being the name itself. -/
def numbered (base : String) (number : Nat) : String :=
  if number ≤ 1 then base else base ++ toString number

/-- The first free name from `number` on. Of `tries + 1` different names one is free
when only `tries` names are taken. -/
def firstFree (taken : List String) (base : String) : (tries number : Nat) → String
  | 0, number => numbered base number
  | tries + 1, number =>
      if taken.contains (numbered base number) then
        firstFree taken base tries (number + 1)
      else
        numbered base number

def allocate (locals : Locals) (bean : String) : String × Locals :=
  let name := firstFree locals.taken (baseName bean) locals.taken.length 1
  (name, ⟨name :: locals.taken⟩)

end Locals

end AheadOfTime.Java
