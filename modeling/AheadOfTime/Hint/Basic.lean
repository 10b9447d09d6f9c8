import AheadOfTime.TypeName

/-!
# Hints

A hint names a dynamic access that a closed-world build has to keep: what is
accessed, how, and on which type's reachability it depends.  Hints about
reflection also name the members they expose, each with a mode.
-/

namespace AheadOfTime

/-- What a hint is about. -/
inductive Subject where
  | type (name : TypeName)
  | resource (pattern : String)
  | proxy (interfaces : List TypeName)
  deriving DecidableEq

namespace Subject

def display : Subject → String
  | type name => name.canonical
  | resource pattern => "resource '" ++ pattern ++ "'"
  | proxy interfaces =>
      "proxy [" ++ ", ".intercalate (interfaces.map TypeName.canonical) ++ "]"

end Subject

inductive AccessKind where
  | construct
  | invokeMethod
  | readField
  | loadResource
  | proxy
  | serialize
  deriving DecidableEq

namespace AccessKind

def word : AccessKind → String
  | construct => "construct"
  | invokeMethod => "invoke-method"
  | readField => "read-field"
  | loadResource => "load-resource"
  | proxy => "proxy"
  | serialize => "serialize"

/-- Every kind of access, in the order in which messages list them. -/
def all : List AccessKind :=
  [construct, invokeMethod, readField, loadResource, proxy, serialize]

def isReflection : AccessKind → Bool
  | construct | invokeMethod | readField => true
  | loadResource | proxy | serialize => false

end AccessKind

/-- What a reflection hint allows with a member: to look it up, or also to call
it or to write it. -/
inductive Mode where
  | introspect
  | invoke
  deriving DecidableEq

namespace Mode

def word : Mode → String
  | introspect => "introspect"
  | invoke => "invoke"

def all : List Mode :=
  [introspect, invoke]

def strongest : Mode → Mode → Mode
  | introspect, other => other
  | invoke, _ => invoke

end Mode

/-- A constructor, a method or a field; a field has no parameter list. -/
structure Member where
  name : String
  parameters : Option (List TypeName)
  deriving DecidableEq

namespace Member

def constructorName : String := "<init>"

def ofConstructor (parameters : List TypeName) : Member :=
  ⟨constructorName, some parameters⟩

def ofMethod (name : String) (parameters : List TypeName) : Member :=
  ⟨name, some parameters⟩

def ofField (name : String) : Member :=
  ⟨name, none⟩

def kind (member : Member) : AccessKind :=
  match member.parameters with
  | none => .readField
  | some _ => if member.name = constructorName then .construct else .invokeMethod

end Member

structure MemberHint where
  member : Member
  mode : Mode
  deriving DecidableEq

/-- What is known about one kind of access to one subject. The members are in
the order of their first registration. Without a condition the hint holds
always, else only when the type of the condition is reachable. -/
structure HintEntry where
  subject : Subject
  kind : AccessKind
  members : List MemberHint
  condition : Option TypeName
  deriving DecidableEq

namespace HintEntry

def isUnconditional (entry : HintEntry) : Bool :=
  entry.condition.isNone

/-- The mode that an entry allows for a member, if it has that member. -/
def modeOf? (entry : HintEntry) (member : Member) : Option Mode :=
  (entry.members.find? fun hint => hint.member == member).map MemberHint.mode

end HintEntry

end AheadOfTime
