import AheadOfTime.Graph
import AheadOfTime.Hint.Registry
import AheadOfTime.Java.Locals
import AheadOfTime.Java.SourceUnit
import AheadOfTime.TypeName.Issued

/-!
# Generation

An initializer replays the steps of a graph.  Each step becomes statements, given
the beans that the steps before it made; hidden members are reached through a
helper class, and every access of that kind is registered as a hint.  A graph that
cannot be generated leaves the hints of the context alone.
-/

namespace AheadOfTime

/-- The names and hints of one run. -/
structure Context where
  names : IssuedNames
  hints : HintRegistry

namespace Context

def empty : Context :=
  ⟨.empty, .empty⟩

end Context

open Java

/-- Why a step cannot be generated. -/
inductive StepFault where
  | alreadyDefined
  | primitive (type : TypeName)
  | nested (type : TypeName)
  | unpackaged (type : TypeName) (package : String)
  | undefinedReference (bean : String)
  | parameterCount (declared given : Nat)
  | undefinedBean
  | literalBean
  | propertyName (name : String)
  | methodName (name : String)
  | supplier (type : TypeName)
  deriving DecidableEq

namespace StepFault

def message : StepFault → String
  | alreadyDefined => "a bean with this name is already defined"
  | primitive type => "cannot instantiate primitive type " ++ type.canonical
  | nested type => "nested type " ++ type.canonical ++ " is not supported"
  | unpackaged type package =>
      type.canonical ++ " is in the default package and cannot be referenced from " ++ package
  | undefinedReference bean =>
      "references bean '" ++ bean ++ "', which is not defined at this point"
  | parameterCount declared given =>
      toString declared ++ " parameter types declared for " ++ toString given ++ " arguments"
  | undefinedBean => "the bean is not defined at this point"
  | literalBean => "properties and callbacks require an instance bean, not a literal"
  | propertyName name => "'" ++ name ++ "' is not a valid property name"
  | methodName name => "'" ++ name ++ "' is not a valid method name"
  | supplier type =>
      "instances of " ++ type.canonical ++
        " are produced by an instance supplier, which cannot be generated ahead of time"

end StepFault

/-- Why a contributed hint cannot be registered. -/
inductive HintFault where
  | noMember (access : AccessKind) (type : TypeName)
  | blankPattern
  | noInterface
  deriving DecidableEq

namespace HintFault

def message : HintFault → String
  | noMember access type =>
      "'" ++ access.word ++ "' on " ++ type.canonical ++
        " needs a reflection access kind and a member name"
  | blankPattern => "resource pattern cannot be empty"
  | noInterface => "a proxy needs at least one interface"

end HintFault

inductive GenerationError where
  | step (index : Nat) (step : Step) (fault : StepFault)
  | hint (index : Nat) (fault : HintFault)
  | name (error : TypeNameError)
  deriving DecidableEq

namespace GenerationError

def message : GenerationError → String
  | .step index failed fault =>
      "unsupported " ++ failed.word ++ " step #" ++ toString index ++ " for bean '" ++
        failed.bean ++ "': " ++ fault.message
  | .hint index fault =>
      "unsupported hint contribution #" ++ toString index ++ ": " ++ fault.message
  | .name error => "invalid generated name: " ++ error.message

end GenerationError

structure Bean where
  localName : String
  type : TypeName
  isLiteral : Bool
  deriving DecidableEq

/-- What the steps so far have made. -/
structure Draft where
  application : TypeName
  imports : Imports
  locals : Locals
  beans : List (String × Bean)
  statements : List Statement
  registrations : List Registration
  helper : Option (TypeName × HelperUses)
  names : IssuedNames

namespace Draft

def initializerFeature : String := "ApplicationContextInitializer"

def helperFeature : String := "ReflectiveAccess"

/-- The names that the generated method uses for itself. -/
def reservedLocals : Locals :=
  ⟨["context", "beanFactory"]⟩

def literalTypes (arguments : List Argument) : List TypeName :=
  arguments.filterMap fun argument =>
    match argument with
    | .value literal => some literal.type
    | .reference _ => none

def typesOf : Step → List TypeName
  | .literal _ value => [value.type.boxed]
  | .creation made =>
      made.type :: made.parameterTypes.getD [] ++ literalTypes made.arguments
  | .property set => set.parameterType.toList ++ literalTypes [set.value]
  | .callback .. => []
  | .supplier .. => []

/-- The imports of an initializer for steps: simple names are claimed first by the
types of the container, then by types that need no import, then by the others, so
that the spelling of a type does not depend on the step that uses it first. -/
def importsFor (name : TypeName) (steps : List Step) : Imports :=
  let types := steps.flatMap typesOf
  (((Imports.start name).claimAll [beanFactoryType, initializerType, contextType]).claimAll
      (types.filter TypeName.isImplicit)).claimAll
    (types.filter fun type => !type.isImplicit)

def start (application name : TypeName) (steps : List Step) (names : IssuedNames) :
    Draft where
  application
  imports := importsFor name steps
  locals := reservedLocals
  beans := []
  statements := []
  registrations := []
  helper := none
  names

def bean? (draft : Draft) (name : String) : Option Bean :=
  draft.beans.lookup name

def checkNew (draft : Draft) (name : String) : Except StepFault Unit :=
  match draft.bean? name with
  | some _ => .error .alreadyDefined
  | none => .ok ()

/-- Refuse a type that cannot be written after `new`. -/
def checkCreatable (draft : Draft) (type : TypeName) : Except StepFault Unit :=
  if type.isPrimitive then
    .error (.primitive type)
  else if type.simple.text.toList.contains '$' then
    .error (.nested type)
  else if type.package.isEmpty && !draft.application.package.isEmpty then
    .error (.unpackaged type draft.application.packageText)
  else
    .ok ()

/-- The bean of a name, if it is an object whose members can be used. -/
def target (draft : Draft) (name : String) : Except StepFault Bean :=
  match draft.bean? name with
  | none => .error .undefinedBean
  | some bean => if bean.isLiteral then .error .literalBean else .ok bean

def operand (draft : Draft) : Argument → Except StepFault (Operand × TypeName)
  | .value literal => .ok (.literal literal, literal.type)
  | .reference name =>
      match draft.bean? name with
      | none => .error (.undefinedReference name)
      | some bean => .ok (.bean bean.localName, bean.type)

def operands (draft : Draft) : List Argument → Except StepFault (List (Operand × TypeName))
  | [] => .ok []
  | argument :: arguments => do
      let first ← draft.operand argument
      let rest ← draft.operands arguments
      return first :: rest

/-- The parameter types of a constructor: those declared, of which there must be as
many as arguments, or else those of the arguments. -/
def parameterTypes (declared : Option (List TypeName)) (given : List TypeName) :
    Except StepFault (List TypeName) :=
  match declared with
  | none => .ok given
  | some types =>
      if types.length = given.length then
        .ok types
      else
        .error (.parameterCount types.length given.length)

def emit (draft : Draft) (statements : List Statement) : Draft :=
  { draft with statements := draft.statements ++ statements }

/-- Register the use of a member that needs reflection, as long as the application
is reachable. -/
def registerMember (draft : Draft) (type : TypeName) (member : Member) : Draft :=
  { draft with
    registrations := draft.registrations ++
      [.reflection type member .invoke (some draft.application)] }

def define (draft : Draft) (name : String) (bean : Bean) : Draft :=
  { draft with beans := (name, bean) :: draft.beans }

def allocate (draft : Draft) (bean : String) : String × Draft :=
  let (name, locals) := draft.locals.allocate bean
  (name, { draft with locals })

def classArray (draft : Draft) (types : List TypeName) : ClassArray :=
  ⟨draft.imports.useLang TypeName.className, types.map draft.imports.use⟩

/-- Note a use of the helper. Its name is issued at the first use, and claims its
simple name then. -/
def useHelper (draft : Draft) (mark : HelperUses → HelperUses) :
    Except GenerationError (TypeUse × Draft) :=
  match draft.helper with
  | some (name, uses) =>
      .ok (draft.imports.use name, { draft with helper := some (name, mark uses) })
  | none =>
      match draft.names.issue draft.application helperFeature with
      | (.error error, _) => .error (.name error)
      | (.ok name, names) =>
          let imports := draft.imports.claim name
          .ok (imports.use name,
            { draft with imports, names, helper := some (name, mark ⟨false, false, false⟩) })

def addLiteral (draft : Draft) (bean : String) (value : Literal) : Draft :=
  let type := value.type.boxed
  let (name, draft) := draft.allocate bean
  (draft.emit [.declare (draft.imports.use type) name value, .publish bean name]).define bean
    ⟨name, type, true⟩

def addObject (draft : Draft) (made : Creation) (operands : List Operand)
    (parameters : List TypeName) : Except GenerationError Draft := do
  let (name, draft) := draft.allocate made.bean
  let type := draft.imports.use made.type
  let draft ←
    match made.visibility with
    | .exposed => pure (draft.emit [.create type name operands])
    | .hidden => do
        let (helper, draft) ← draft.useHelper fun uses => { uses with instantiate := true }
        let array := draft.classArray parameters
        pure ((draft.emit [.createHidden helper type name array operands]).registerMember
          made.type (.ofConstructor parameters))
  return (draft.emit [.publish made.bean name]).define made.bean ⟨name, made.type, false⟩

def addProperty (draft : Draft) (set : PropertyValue) (bean : Bean) (value : Operand)
    (parameter : TypeName) : Except GenerationError Draft := do
  match set.injection, set.visibility with
  | .setter, .exposed =>
      return draft.emit [.callSetter bean.localName (setterName set.name) value]
  | .field, .exposed =>
      return draft.emit [.assign bean.localName set.name value]
  | .setter, .hidden =>
      let setter := setterName set.name
      let (helper, draft) ← draft.useHelper fun uses => { uses with invoke := true }
      let type := draft.imports.use bean.type
      let array := draft.classArray [parameter]
      return (draft.emit
          [.callHiddenSetter helper type bean.localName setter array value]).registerMember
        bean.type (.ofMethod setter [parameter])
  | .field, .hidden =>
      let (helper, draft) ← draft.useHelper fun uses => { uses with setField := true }
      let type := draft.imports.use bean.type
      return (draft.emit
          [.assignHidden helper type bean.localName set.name value]).registerMember
        bean.type (.ofField set.name)

def addCallback (draft : Draft) (bean : Bean) (method : String) (visibility : Visibility) :
    Except GenerationError Draft := do
  match visibility with
  | .exposed =>
      return draft.emit [.call bean.localName method]
  | .hidden =>
      let (helper, draft) ← draft.useHelper fun uses => { uses with invoke := true }
      let type := draft.imports.use bean.type
      let array := draft.classArray []
      return (draft.emit [.callHidden helper type bean.localName method array]).registerMember
        bean.type (.ofMethod method [])

def addStep (draft : Draft) (index : Nat) (step : Step) : Except GenerationError Draft := do
  let checked {α : Type} (result : Except StepFault α) : Except GenerationError α :=
    result.mapError (.step index step)
  match step with
  | .literal bean value =>
      checked (draft.checkNew bean)
      return draft.addLiteral bean value
  | .creation made =>
      checked (draft.checkNew made.bean)
      checked (draft.checkCreatable made.type)
      let given ← checked (draft.operands made.arguments)
      let parameters ← checked (parameterTypes made.parameterTypes (given.map Prod.snd))
      draft.addObject made (given.map Prod.fst) parameters
  | .property set =>
      let bean ← checked (draft.target set.bean)
      if !isIdentifier set.name then
        checked (.error (.propertyName set.name))
      let (value, type) ← checked (draft.operand set.value)
      draft.addProperty set bean value (set.parameterType.getD type)
  | .callback bean method visibility =>
      let bean ← checked (draft.target bean)
      if !isIdentifier method then
        checked (.error (.methodName method))
      draft.addCallback bean method visibility
  | .supplier _ type =>
      checked (.error (.supplier type))

/-- Add the statements of steps, numbered from an index on. The draft before a step
that fails is kept beside the error. -/
def addSteps (draft : Draft) : (index : Nat) → List Step → Draft × Option GenerationError
  | _, [] => (draft, none)
  | index, step :: steps =>
      match draft.addStep index step with
      | .error error => (draft, some error)
      | .ok draft => draft.addSteps (index + 1) steps

end Draft

namespace Contribution

def registration : Contribution → Except HintFault Registration
  | .reflection hint =>
      match hint.resolvedMember with
      | none => .error (.noMember hint.access hint.type)
      | some member => .ok (.reflection hint.type member hint.mode hint.reachableIf)
  | .resource pattern reachableIf =>
      if Text.isBlank pattern.toList then
        .error .blankPattern
      else
        .ok (.resource pattern reachableIf)
  | .proxy interfaces reachableIf =>
      if interfaces.isEmpty then .error .noInterface else .ok (.proxy interfaces reachableIf)
  | .serialization type reachableIf => .ok (.serialization type reachableIf)

def registrations : (index : Nat) → List Contribution →
    Except GenerationError (List Registration)
  | _, [] => .ok []
  | index, contribution :: rest =>
      match contribution.registration with
      | .error fault => .error (.hint index fault)
      | .ok first =>
          match registrations (index + 1) rest with
          | .error error => .error error
          | .ok others => .ok (first :: others)

end Contribution

/-- What is generated for a graph: the initializer, and the helper if it is
needed. -/
structure Generated where
  initializer : Initializer
  helper : Option Helper

namespace Generated

def units (generated : Generated) : List SourceUnit :=
  generated.initializer.source :: (generated.helper.map Helper.source).toList

end Generated

namespace Graph

/-- The registration that lets a launcher create the initializer by its name. -/
def entryPoint (application name : TypeName) : Registration :=
  .reflection name (.ofConstructor []) .invoke (some application)

/-- Generate the classes of a graph in a context. The names issued stay issued when
generation fails; hints are added only when it succeeds. -/
def generate (graph : Graph) (context : Context) :
    Except GenerationError Generated × Context :=
  match context.names.issue graph.application Draft.initializerFeature with
  | (.error error, names) => (.error (.name error), { context with names })
  | (.ok name, names) =>
      let start := Draft.start graph.application name graph.steps names
      match start.addSteps 0 graph.steps with
      | (draft, some error) => (.error error, { context with names := draft.names })
      | (draft, none) =>
          match Contribution.registrations 0 graph.contributions with
          | .error error => (.error error, { context with names := draft.names })
          | .ok contributed =>
              let staged := HintRegistry.empty.registerAll
                (draft.registrations ++ contributed ++ [entryPoint graph.application name])
              let generated : Generated :=
                ⟨⟨graph.application, name, draft.imports, draft.statements⟩,
                  draft.helper.map fun (name, uses) => ⟨name, uses, draft.imports⟩⟩
              (.ok generated, ⟨draft.names, context.hints.merge staged⟩)

end Graph

end AheadOfTime
