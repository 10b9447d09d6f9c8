import AheadOfTime.Hint.Basic
import AheadOfTime.Literal

/-!
# Resolved graphs

A graph lists what a container did to build its beans, in order, and the hints
that application code contributes.
-/

namespace AheadOfTime

/-- Whether generated code can name a member, or needs reflection to reach it. -/
inductive Visibility where
  | exposed
  | hidden
  deriving DecidableEq

namespace Visibility

def word : Visibility → String
  | exposed => "public"
  | hidden => "private"

end Visibility

/-- How a property gets its value. -/
inductive Injection where
  | setter
  | field
  deriving DecidableEq

namespace Injection

def word : Injection → String
  | setter => "setter"
  | field => "field"

end Injection

/-- An argument: a bean created before, or a literal. -/
inductive Argument where
  | reference (bean : String)
  | value (literal : Literal)
  deriving DecidableEq

/-- Create a bean by calling a constructor. Without declared parameter types those
of the arguments are taken. -/
structure Creation where
  bean : String
  type : TypeName
  arguments : List Argument
  parameterTypes : Option (List TypeName)
  visibility : Visibility
  deriving DecidableEq

/-- Give a property of a bean its value. Without a declared parameter type that of
the value is taken. -/
structure PropertyValue where
  bean : String
  name : String
  value : Argument
  injection : Injection
  parameterType : Option TypeName
  visibility : Visibility
  deriving DecidableEq

inductive Step where
  | literal (bean : String) (value : Literal)
  | creation (made : Creation)
  | property (set : PropertyValue)
  | callback (bean : String) (method : String) (visibility : Visibility)
  | supplier (bean : String) (type : TypeName)
  deriving DecidableEq

namespace Step

def bean : Step → String
  | literal bean _ => bean
  | creation made => made.bean
  | property set => set.bean
  | callback bean _ _ => bean
  | supplier bean _ => bean

def word : Step → String
  | literal .. => "literal"
  | creation .. => "instance"
  | property .. => "property"
  | callback .. => "lifecycle"
  | supplier .. => "supplier"

end Step

structure ReflectionHint where
  type : TypeName
  access : AccessKind
  member : Option String
  parameterTypes : List TypeName
  mode : Mode
  reachableIf : Option TypeName
  deriving DecidableEq

namespace ReflectionHint

/-- The member that a hint is about: methods and fields need a name, constructors
do without, and only kinds of access through reflection have one. -/
def resolvedMember (hint : ReflectionHint) : Option Member :=
  match hint.access with
  | .construct => some (.ofConstructor hint.parameterTypes)
  | .invokeMethod => hint.member.map fun name => .ofMethod name hint.parameterTypes
  | .readField => hint.member.map .ofField
  | _ => none

end ReflectionHint

/-- A hint from application code. -/
inductive Contribution where
  | reflection (hint : ReflectionHint)
  | resource (pattern : String) (reachableIf : Option TypeName)
  | proxy (interfaces : List TypeName) (reachableIf : Option TypeName)
  | serialization (type : TypeName) (reachableIf : Option TypeName)
  deriving DecidableEq

/-- What was done to build an application's beans. -/
structure Graph where
  application : TypeName
  steps : List Step
  contributions : List Contribution
  deriving DecidableEq

end AheadOfTime
