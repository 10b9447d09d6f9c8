import AheadOfTime.Decoding
import AheadOfTime.Graph

/-!
# Reading graphs

How graphs are written as documents, and graphs from JSON and TOML texts.
-/

namespace AheadOfTime

inductive GraphError where
  | unreadable
  | malformed (format : DocumentFormat)
  | unfit (format : DocumentFormat) (error : DecodingError)
  deriving DecidableEq

namespace Decoder

/-- A literal of whatever type it has; an integer beyond 64 bits becomes a real
number. -/
def literal : Decoder Literal
  | .boolean value => .ok (.boolean value)
  | .integer value =>
      if Int64.minValue.toInt ≤ value ∧ value ≤ Int64.maxValue.toInt then
        .ok (.integer (Int64.ofInt value))
      else
        .ok (.real (.ofInt value))
  | .real value => .ok (.real value)
  | .text value => .ok (.text value)
  | _ => .error (.noVariant "Literal")

inductive ArgumentKind where
  | reference
  | value

def argumentWords : List (String × ArgumentKind) :=
  [("ref", .reference), ("value", .value)]

/-- An argument: the name of a bean or a literal, as the one entry of a mapping. -/
def argument : Decoder Argument := fun document => do
  let (name, payload) ← variant document
  let kind ← ofWord argumentWords name
  match payload with
  | none => .error (.invalidType .bareVariant "newtype variant")
  | some payload =>
      match kind with
      | .reference => return .reference (← text payload)
      | .value => return .value (← literal payload)

def visibility : Decoder Visibility :=
  word ([.exposed, .hidden].map fun visibility => (visibility.word, visibility))

def injection : Decoder Injection :=
  word ([.setter, .field].map fun injection => (injection.word, injection))

def accessKind : Decoder AccessKind :=
  word (AccessKind.all.map fun kind => (kind.word, kind))

def mode : Decoder Mode :=
  word (Mode.all.map fun mode => (mode.word, mode))

structure StepDraft where
  bean : Option String := none
  literal : Option Literal := none
  type : Option TypeName := none
  arguments : List Argument := []
  parameterTypes : Option (List TypeName) := none
  name : Option String := none
  value : Option Argument := none
  injection : Injection := .setter
  parameterType : Option TypeName := none
  method : Option String := none
  visibility : Visibility := .exposed

/-- A field that has to be there. -/
def required (name : String) (value : Option α) : Except String α :=
  match value with
  | some value => .ok value
  | none => .error name

namespace StepDraft

def beanField : Field StepDraft :=
  .of "bean" text fun draft bean => { draft with bean := some bean }

def literalField : Field StepDraft :=
  .of "value" Decoder.literal fun draft literal => { draft with literal := some literal }

def typeField : Field StepDraft :=
  .of "type" typeName fun draft type => { draft with type := some type }

def argumentsField : Field StepDraft :=
  .of "args" (list argument) fun draft arguments => { draft with arguments }

def parameterTypesField : Field StepDraft :=
  .of "parameter-types" (optional (list typeName)) fun draft parameterTypes =>
    { draft with parameterTypes }

def nameField : Field StepDraft :=
  .of "name" text fun draft name => { draft with name := some name }

def valueField : Field StepDraft :=
  .of "value" argument fun draft value => { draft with value := some value }

def injectionField : Field StepDraft :=
  .of "injection" Decoder.injection fun draft injection => { draft with injection }

def parameterTypeField : Field StepDraft :=
  .of "parameter-type" (optional typeName) fun draft parameterType =>
    { draft with parameterType }

def methodField : Field StepDraft :=
  .of "method" text fun draft method => { draft with method := some method }

def visibilityField : Field StepDraft :=
  .of "visibility" Decoder.visibility fun draft visibility => { draft with visibility }

end StepDraft

inductive StepKind where
  | literal
  | creation
  | property
  | callback
  | supplier

def stepWords : List (String × StepKind) :=
  [("literal", .literal), ("instance", .creation), ("property", .property),
    ("lifecycle", .callback), ("supplier", .supplier)]

def stepVariant (name : String) (fields : List (Field StepDraft))
    (finish : StepDraft → Except String Step) : Shape StepDraft Step where
  title := "struct variant ConstructionStep::" ++ name
  fields
  blank := {}
  finish
  closed := false
  surplus := .counted

def stepShape : StepKind → Shape StepDraft Step
  | .literal =>
      stepVariant "Literal" [StepDraft.beanField, StepDraft.literalField] fun draft => do
        return .literal (← required "bean" draft.bean) (← required "value" draft.literal)
  | .creation =>
      stepVariant "Instance"
        [StepDraft.beanField, StepDraft.typeField, StepDraft.argumentsField,
          StepDraft.parameterTypesField, StepDraft.visibilityField] fun draft => do
        return .creation
          ⟨← required "bean" draft.bean, ← required "type" draft.type, draft.arguments,
            draft.parameterTypes, draft.visibility⟩
  | .property =>
      stepVariant "Property"
        [StepDraft.beanField, StepDraft.nameField, StepDraft.valueField,
          StepDraft.injectionField, StepDraft.parameterTypeField,
          StepDraft.visibilityField] fun draft => do
        return .property
          ⟨← required "bean" draft.bean, ← required "name" draft.name,
            ← required "value" draft.value, draft.injection, draft.parameterType,
            draft.visibility⟩
  | .callback =>
      stepVariant "Lifecycle"
        [StepDraft.beanField, StepDraft.methodField, StepDraft.visibilityField] fun draft => do
        return .callback (← required "bean" draft.bean) (← required "method" draft.method)
          draft.visibility
  | .supplier =>
      stepVariant "Supplier" [StepDraft.beanField, StepDraft.typeField] fun draft => do
        return .supplier (← required "bean" draft.bean) (← required "type" draft.type)

def step : Decoder Step := fun document => do
  let (kind, rest) ← splitKind "ConstructionStep" stepWords document
  (stepShape kind).decode rest

/-- The fields of a contribution that have been read. -/
structure ContributionDraft where
  type : Option TypeName := none
  access : Option AccessKind := none
  member : Option String := none
  parameterTypes : List TypeName := []
  mode : Mode := .invoke
  pattern : Option String := none
  interfaces : Option (List TypeName) := none
  reachableIf : Option TypeName := none

namespace ContributionDraft

def typeField : Field ContributionDraft :=
  .of "type" typeName fun draft type => { draft with type := some type }

def accessField : Field ContributionDraft :=
  .of "access" accessKind fun draft access => { draft with access := some access }

def memberField : Field ContributionDraft :=
  .of "member" (optional text) fun draft member => { draft with member }

def parameterTypesField : Field ContributionDraft :=
  .of "parameter-types" (list typeName) fun draft parameterTypes =>
    { draft with parameterTypes }

def modeField : Field ContributionDraft :=
  .of "mode" Decoder.mode fun draft mode => { draft with mode }

def patternField : Field ContributionDraft :=
  .of "pattern" text fun draft pattern => { draft with pattern := some pattern }

def interfacesField : Field ContributionDraft :=
  .of "interfaces" (list typeName) fun draft interfaces =>
    { draft with interfaces := some interfaces }

def reachableIfField : Field ContributionDraft :=
  .of "reachable-if" (optional typeName) fun draft reachableIf => { draft with reachableIf }

end ContributionDraft

inductive ContributionKind where
  | reflection
  | resource
  | proxy
  | serialization

def contributionWords : List (String × ContributionKind) :=
  [("reflection", .reflection), ("resource", .resource), ("proxy", .proxy),
    ("serialization", .serialization)]

def contributionVariant (name : String) (fields : List (Field ContributionDraft))
    (finish : ContributionDraft → Except String Contribution) :
    Shape ContributionDraft Contribution where
  title := "struct variant ContributedHint::" ++ name
  fields
  blank := {}
  finish
  closed := false
  surplus := .counted

def contributionShape : ContributionKind → Shape ContributionDraft Contribution
  | .reflection =>
      contributionVariant "Reflection"
        [ContributionDraft.typeField, ContributionDraft.accessField,
          ContributionDraft.memberField, ContributionDraft.parameterTypesField,
          ContributionDraft.modeField, ContributionDraft.reachableIfField] fun draft => do
        return .reflection
          ⟨← required "type" draft.type, ← required "access" draft.access, draft.member,
            draft.parameterTypes, draft.mode, draft.reachableIf⟩
  | .resource =>
      contributionVariant "Resource"
        [ContributionDraft.patternField, ContributionDraft.reachableIfField] fun draft => do
        return .resource (← required "pattern" draft.pattern) draft.reachableIf
  | .proxy =>
      contributionVariant "Proxy"
        [ContributionDraft.interfacesField, ContributionDraft.reachableIfField] fun draft => do
        return .proxy (← required "interfaces" draft.interfaces) draft.reachableIf
  | .serialization =>
      contributionVariant "Serialization"
        [ContributionDraft.typeField, ContributionDraft.reachableIfField] fun draft => do
        return .serialization (← required "type" draft.type) draft.reachableIf

def contribution : Decoder Contribution := fun document => do
  let (kind, rest) ← splitKind "ContributedHint" contributionWords document
  (contributionShape kind).decode rest

structure GraphDraft where
  application : Option TypeName := none
  steps : List Step := []
  contributions : List Contribution := []

def graphShape : Shape GraphDraft Graph where
  title := "struct ResolvedGraph"
  fields :=
    [.of "application" typeName fun draft application =>
        { draft with application := some application },
      .of "steps" (list step) fun draft steps => { draft with steps },
      .of "hints" (list contribution) fun draft contributions =>
        { draft with contributions }]
  blank := {}
  finish := fun draft => do
    return ⟨← required "application" draft.application, draft.steps, draft.contributions⟩
  closed := true
  surplus := .malformed

end Decoder

namespace Graph

/-- Read a graph from a text. Items beyond the last field count as a fault of the
text. -/
def read (format : DocumentFormat) (text : String) : Except GraphError Graph :=
  match format.read? text with
  | none => .error (.malformed format)
  | some document =>
      match Decoder.graphShape.decode document with
      | .ok graph => .ok graph
      | .error .surplusItems => .error (.malformed format)
      | .error error => .error (.unfit format error)

/-- The format of a graph file: JSON if its name ends so, in any case, else
TOML. -/
def formatOf (path : Path) : DocumentFormat :=
  match path.extension? with
  | some extension => if extension.toLower = "json" then .json else .toml
  | none => .toml

end Graph

end AheadOfTime
