import AheadOfTime.Generation
import AheadOfTime.Proofs.Graph.Access

/-!
# Replaying steps

The statements that replay steps, written down from the steps alone: the variable of
every bean, the name of the helper and the imports are given.  The helper claims its
simple name at the first hidden step, so the imports may change there.
-/

namespace AheadOfTime

open Java

/-- How generated statements name beans, the helper and other types. -/
structure Naming where
  variableOf : String → String
  helper : TypeName
  imports : Imports

def Argument.operand (naming : Naming) : Argument → Operand
  | .value literal => .literal literal
  | .reference bean => .bean (naming.variableOf bean)

namespace Naming

/-- The naming once the helper has claimed its simple name. -/
def claimed (naming : Naming) : Naming :=
  { naming with imports := naming.imports.claim naming.helper }

def after (naming : Naming) (step : Step) : Naming :=
  if step.isHidden then naming.claimed else naming

def classArray (naming : Naming) (types : List TypeName) : ClassArray :=
  ⟨naming.imports.useLang TypeName.className, types.map naming.imports.use⟩

end Naming

/-- The statement that declares the variable of a new object. The type of the object
is written as it was before the helper claimed its simple name. -/
def Creation.statement (naming : Naming) (scope : Scope) (made : Creation) : Statement :=
  let type := naming.imports.use made.type
  let name := naming.variableOf made.bean
  let operands := made.arguments.map (·.operand naming)
  match made.visibility with
  | .exposed => .create type name operands
  | .hidden =>
      .createHidden (naming.claimed.imports.use naming.helper) type name
        (naming.claimed.classArray (made.parameters scope)) operands

def PropertyValue.statement (naming : Naming) (scope : Scope) (type : TypeName)
    (set : PropertyValue) : Statement :=
  let name := naming.variableOf set.bean
  let value := set.value.operand naming
  match set.injection, set.visibility with
  | .setter, .exposed => .callSetter name (setterName set.name) value
  | .field, .exposed => .assign name set.name value
  | .setter, .hidden =>
      .callHiddenSetter (naming.claimed.imports.use naming.helper)
        (naming.claimed.imports.use type) name (setterName set.name)
        (naming.claimed.classArray (set.parameters scope)) value
  | .field, .hidden =>
      .assignHidden (naming.claimed.imports.use naming.helper)
        (naming.claimed.imports.use type) name set.name value

def Naming.callStatement (naming : Naming) (type : TypeName) (bean method : String) :
    Visibility → Statement
  | .exposed => .call (naming.variableOf bean) method
  | .hidden =>
      .callHidden (naming.claimed.imports.use naming.helper) (naming.claimed.imports.use type)
        (naming.variableOf bean) method (naming.claimed.classArray [])

/-- The statements of a step: a definition declares the variable of the bean and
publishes it, any other step is one statement about a bean defined before. -/
def Step.statements (naming : Naming) (scope : Scope) : Step → List Statement
  | .literal bean value =>
      [.declare (naming.imports.use value.type.boxed) (naming.variableOf bean) value,
        .publish bean (naming.variableOf bean)]
  | .creation made =>
      [made.statement naming scope, .publish made.bean (naming.variableOf made.bean)]
  | .property set => (scope.typeOf? set.bean).toList.map (set.statement naming scope)
  | .callback bean method visibility =>
      (scope.typeOf? bean).toList.map (naming.callStatement · bean method visibility)
  | .supplier .. => []

def Naming.replay (naming : Naming) (scope : Scope) : List Step → List Statement
  | [] => []
  | step :: rest =>
      step.statements naming scope ++ (naming.after step).replay (scope.after step) rest

/-- Two namings that agree on the beans of a scope and on everything else. -/
structure Naming.AgreesOn (scope : Scope) (first second : Naming) : Prop where
  sameVariable : ∀ name, scope.Has name → first.variableOf name = second.variableOf name
  sameHelper : first.helper = second.helper
  sameImports : first.imports = second.imports

section

variable {scope : Scope} {first second : Naming}

namespace Naming.AgreesOn

theorem claimed (agrees : AgreesOn scope first second) :
    AgreesOn scope first.claimed second.claimed where
  sameVariable := agrees.sameVariable
  sameHelper := agrees.sameHelper
  sameImports := by
    rw [Naming.claimed, Naming.claimed, agrees.sameHelper, agrees.sameImports]

theorem operand (agrees : AgreesOn scope first second) {argument : Argument}
    (defined : argument.IsIn scope) : argument.operand first = argument.operand second := by
  cases argument with
  | value literal =>
      rfl
  | reference name =>
      exact congrArg Operand.bean (agrees.sameVariable name defined)

theorem classArray (agrees : AgreesOn scope first second) (types : List TypeName) :
    first.classArray types = second.classArray types := by
  rw [Naming.classArray, Naming.classArray, agrees.sameImports]

end Naming.AgreesOn

theorem Argument.IsIn.after {argument : Argument} (defined : argument.IsIn scope)
    (step : Step) : argument.IsIn (scope.after step) := by
  cases argument with
  | value literal =>
      trivial
  | reference name =>
      exact Scope.has_after defined step

/-- The statements of a well-formed step depend on the beans known after it only. -/
theorem Step.statements_congr {application : TypeName} {step : Step}
    (wellFormed : step.WellFormed application scope)
    (agrees : Naming.AgreesOn (scope.after step) first second) :
    step.statements first scope = step.statements second scope := by
  have sameHelperUse : first.claimed.imports.use first.helper =
      second.claimed.imports.use second.helper := by
    rw [agrees.claimed.sameImports, agrees.sameHelper]
  cases step with
  | literal bean value =>
      have chosen := agrees.sameVariable bean (scope.has_after_defined rfl)
      rw [statements, statements, agrees.sameImports, chosen]
  | creation made =>
      have chosen := agrees.sameVariable made.bean (scope.has_after_defined rfl)
      have operands :
          made.arguments.map (·.operand first) = made.arguments.map (·.operand second) := by
        refine List.map_congr_left fun argument member => ?_
        exact agrees.operand ((Creation.WellFormed.defined wellFormed argument member).after _)
      rw [statements, statements, Creation.statement, Creation.statement, agrees.sameImports,
        chosen, operands, sameHelperUse, agrees.claimed.classArray]
  | property set =>
      have known := agrees.sameVariable set.bean
        (Scope.has_after (PropertyValue.WellFormed.object wellFormed).has _)
      have operand := agrees.operand
        ((PropertyValue.WellFormed.defined wellFormed).after (.property set))
      unfold statements
      refine List.map_congr_left fun type _ => ?_
      rw [PropertyValue.statement, PropertyValue.statement, known, operand, sameHelperUse,
        agrees.claimed.classArray, agrees.claimed.sameImports]
  | callback bean method visibility =>
      have known := agrees.sameVariable bean (Scope.has_after wellFormed.1.has _)
      unfold statements
      refine List.map_congr_left fun type _ => ?_
      cases visibility with
      | exposed =>
          rw [Naming.callStatement, Naming.callStatement, known]
      | hidden =>
          rw [Naming.callStatement, Naming.callStatement, known, sameHelperUse,
            agrees.claimed.classArray, agrees.claimed.sameImports]
  | supplier bean type =>
      rfl

end

end AheadOfTime
