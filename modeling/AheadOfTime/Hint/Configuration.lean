import AheadOfTime.Document
import AheadOfTime.Hint.Registry
import AheadOfTime.Text

/-!
# Native-image configuration

The hints of a registry as the lists that the four configuration files hold, and
those lists as file texts.  A list without elements makes no file.

A resource pattern is a text in which `*` stands for any characters.  As a regular
expression its literal parts are quoted between `\Q` and `\E`, and each `*`
becomes `.*` outside the quotes.
-/

namespace AheadOfTime

namespace ResourcePattern

def quoteStart : List Char := ['\\', 'Q']

def quoteEnd : List Char := ['\\', 'E']

/-- The text without the quoted parts that quote nothing; what is left is not
looked through again. -/
def dropEmptyQuotes : List Char → List Char
  | '\\' :: 'Q' :: '\\' :: 'E' :: rest => dropEmptyQuotes rest
  | c :: rest => c :: dropEmptyQuotes rest
  | [] => []

/-- The regular expression of a pattern, empty quotes included. -/
def quotedWildcards (pattern : List Char) : List Char :=
  quoteStart ++
    Text.replaceChar '*' (quoteEnd ++ ['.', '*'] ++ quoteStart) pattern ++ quoteEnd

def toRegex (pattern : String) : String :=
  String.ofList (dropEmptyQuotes (quotedWildcards pattern.toList))

end ResourcePattern

structure FieldAccess where
  name : String
  allowWrite : Bool
  deriving DecidableEq

/-- A constructor or method that reflection may use. -/
structure MethodAccess where
  name : String
  parameters : List TypeName
  deriving DecidableEq

/-- The members of one type that reflection may use under one condition. -/
structure TypeAccess where
  name : TypeName
  condition : Option TypeName
  fields : List FieldAccess
  methods : List MethodAccess
  queriedMethods : List MethodAccess
  deriving DecidableEq

structure Conditioned (α : Type) where
  condition : Option TypeName
  subject : α
  deriving DecidableEq

structure NativeConfiguration where
  reflection : List TypeAccess
  resources : List (Conditioned String)
  proxies : List (Conditioned (List TypeName))
  serialization : List (Conditioned TypeName)
  deriving DecidableEq

namespace TypeAccess

def empty (name : TypeName) (condition : Option TypeName) : TypeAccess :=
  ⟨name, condition, [], [], []⟩

/-- A type with one more member: fields by themselves, methods by what the mode
allows with them. -/
def addMember (access : TypeAccess) (hint : MemberHint) : TypeAccess :=
  match hint.member.parameters with
  | none =>
      { access with
        fields := access.fields ++ [⟨hint.member.name, hint.mode == .invoke⟩] }
  | some parameters =>
      match hint.mode with
      | .invoke =>
          { access with methods := access.methods ++ [⟨hint.member.name, parameters⟩] }
      | .introspect =>
          { access with
            queriedMethods := access.queriedMethods ++ [⟨hint.member.name, parameters⟩] }

def addMembers (access : TypeAccess) (hints : List MemberHint) : TypeAccess :=
  hints.foldl addMember access

end TypeAccess

namespace NativeConfiguration

/-- Put the members of a hint into the element of its type and condition, a new
one at the end if there is none. -/
def addHint (type : TypeName) (condition : Option TypeName) (members : List MemberHint) :
    List TypeAccess → List TypeAccess
  | [] => [(TypeAccess.empty type condition).addMembers members]
  | access :: rest =>
      if access.name = type ∧ access.condition = condition then
        access.addMembers members :: rest
      else
        access :: addHint type condition members rest

/-- Put an entry into the reflection list, if it is about reflection. -/
def addEntry (elements : List TypeAccess) (entry : HintEntry) : List TypeAccess :=
  match entry.kind.isReflection, entry.subject with
  | true, .type type => addHint type entry.condition entry.members elements
  | _, _ => elements

def reflectionOf (entries : List HintEntry) : List TypeAccess :=
  entries.foldl addEntry []

def resource? (entry : HintEntry) : Option (Conditioned String) :=
  match entry.subject with
  | .resource pattern => some ⟨entry.condition, pattern⟩
  | _ => none

def proxy? (entry : HintEntry) : Option (Conditioned (List TypeName)) :=
  match entry.subject with
  | .proxy interfaces => some ⟨entry.condition, interfaces⟩
  | _ => none

def serialized? (entry : HintEntry) : Option (Conditioned TypeName) :=
  match entry.subject with
  | .type type => some ⟨entry.condition, type⟩
  | _ => none

def ofRegistry (registry : HintRegistry) : NativeConfiguration :=
  ⟨reflectionOf registry.entries,
    (registry.ofKind .loadResource).filterMap resource?,
    (registry.ofKind .proxy).filterMap proxy?,
    (registry.ofKind .serialize).filterMap serialized?⟩

/-- The entry that names a condition; none when there is no condition. -/
def conditionEntry (condition : Option TypeName) : List (String × Document) :=
  match condition with
  | none => []
  | some type => [("condition", .mapping [("typeReachable", .text type.canonical)])]

/-- A field as an element of a `fields` list. -/
def fieldDocument (field : FieldAccess) : Document :=
  .mapping (("name", .text field.name) ::
    if field.allowWrite then [("allowWrite", .boolean true)] else [])

/-- A method as an element of a `methods` list. -/
def methodDocument (method : MethodAccess) : Document :=
  .mapping [("name", .text method.name),
    ("parameterTypes",
      .sequence (method.parameters.map fun type => .text type.canonical))]

/-- A list under a key, left out when it is empty. -/
def listEntry (key : String) (items : List Document) : List (String × Document) :=
  if items.isEmpty then [] else [(key, .sequence items)]

def typeDocument (access : TypeAccess) : Document :=
  .mapping (("name", .text access.name.canonical) :: conditionEntry access.condition ++
    listEntry "fields" (access.fields.map fieldDocument) ++
    listEntry "methods" (access.methods.map methodDocument) ++
    listEntry "queriedMethods" (access.queriedMethods.map methodDocument))

def reflectionDocument (configuration : NativeConfiguration) : Document :=
  .sequence (configuration.reflection.map typeDocument)

def resourceDocument (configuration : NativeConfiguration) : Document :=
  .mapping
    [("resources", .mapping
      [("includes", .sequence (configuration.resources.map fun resource =>
        .mapping (conditionEntry resource.condition ++
          [("pattern", .text (ResourcePattern.toRegex resource.subject))])))]),
      ("bundles", .sequence [])]

def proxyDocument (configuration : NativeConfiguration) : Document :=
  .sequence (configuration.proxies.map fun proxy =>
    .mapping (conditionEntry proxy.condition ++
      [("interfaces",
        .sequence (proxy.subject.map fun type => .text type.canonical))]))

def serializationDocument (configuration : NativeConfiguration) : Document :=
  .mapping
    [("types", .sequence (configuration.serialization.map fun serialized =>
      .mapping (conditionEntry serialized.condition ++
        [("name", .text serialized.subject.canonical)]))),
      ("lambdaCapturingTypes", .sequence [])]

end NativeConfiguration

structure ConfigurationFile where
  name : String
  contents : String
  deriving DecidableEq

namespace NativeConfiguration

def file (name : String) (holds : Bool) (document : Document) : List ConfigurationFile :=
  if holds then [⟨name, Json.fileText document⟩] else []

/-- The files of a configuration, in the order reflection, resources, proxies,
serialization. -/
def files (configuration : NativeConfiguration) : List ConfigurationFile :=
  file "reflect-config.json" (!configuration.reflection.isEmpty)
      configuration.reflectionDocument ++
    file "resource-config.json" (!configuration.resources.isEmpty)
      configuration.resourceDocument ++
    file "proxy-config.json" (!configuration.proxies.isEmpty)
      configuration.proxyDocument ++
    file "serialization-config.json" (!configuration.serialization.isEmpty)
      configuration.serializationDocument

end NativeConfiguration

end AheadOfTime
