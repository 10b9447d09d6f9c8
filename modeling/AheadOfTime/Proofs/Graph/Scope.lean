import AheadOfTime.Generation

/-!
# Well-formed graphs

What a step may refer to depends on the beans that the steps before it define.  A
step is well-formed in such a scope when none of its possible faults is present, and
a graph is well-formed when each of its steps is in the scope of the steps before
it and each of its contributions is on its own.
-/

namespace AheadOfTime

structure BeanRecord where
  type : TypeName
  isLiteral : Bool
  deriving DecidableEq

/-- The beans defined so far, the newest one first. -/
abbrev Scope := List (String × BeanRecord)

/-- The bean that a step defines: a literal has the boxed type of its value. -/
def Step.defined? : Step → Option (String × BeanRecord)
  | .literal bean value => some (bean, ⟨value.type.boxed, true⟩)
  | .creation made => some (made.bean, ⟨made.type, false⟩)
  | .property _ | .callback .. | .supplier .. => none

namespace Scope

def after (scope : Scope) (step : Step) : Scope :=
  step.defined?.toList ++ scope

def afterAll (scope : Scope) (steps : List Step) : Scope :=
  steps.foldl after scope

def of (steps : List Step) : Scope :=
  afterAll [] steps

def Has (scope : Scope) (bean : String) : Prop :=
  (scope.lookup bean).isSome = true

instance (scope : Scope) (bean : String) : Decidable (scope.Has bean) :=
  inferInstanceAs (Decidable (_ = true))

/-- Whether a bean is defined by creating an object. -/
def HasObject (scope : Scope) (bean : String) : Prop :=
  ∃ type, scope.lookup bean = some ⟨type, false⟩

def typeOf? (scope : Scope) (bean : String) : Option TypeName :=
  (scope.lookup bean).map BeanRecord.type

end Scope

/-- Whether an argument is a literal or refers to a defined bean. -/
def Argument.IsIn (scope : Scope) : Argument → Prop
  | .value _ => True
  | .reference bean => scope.Has bean

structure Creation.WellFormed (application : TypeName) (scope : Scope) (made : Creation) :
    Prop where
  new : ¬ scope.Has made.bean
  notPrimitive : made.type.isPrimitive = false
  notNested : '$' ∉ made.type.simple.text.toList
  packaged : made.type.package = [] → application.package = []
  defined : ∀ argument ∈ made.arguments, argument.IsIn scope
  counted : ∀ types ∈ made.parameterTypes, types.length = made.arguments.length

structure PropertyValue.WellFormed (scope : Scope) (set : PropertyValue) : Prop where
  object : scope.HasObject set.bean
  named : isIdentifier set.name = true
  defined : set.value.IsIn scope

/-- What a step requires of the application and of the beans before it. -/
def Step.WellFormed (application : TypeName) (scope : Scope) : Step → Prop
  | .literal bean _ => ¬ scope.Has bean
  | .creation made => made.WellFormed application scope
  | .property set => set.WellFormed scope
  | .callback bean method _ => scope.HasObject bean ∧ isIdentifier method = true
  | .supplier .. => False

/-- Whether steps are well-formed one after the other from a scope on. -/
def Scope.Admits (application : TypeName) (scope : Scope) : List Step → Prop
  | [] => True
  | step :: rest => step.WellFormed application scope ∧ (scope.after step).Admits application rest

namespace Scope

def definitionFaults (scope : Scope) (bean : String) : List StepFault :=
  if scope.Has bean then [.alreadyDefined] else []

def targetFaults (scope : Scope) (bean : String) : List StepFault :=
  match scope.lookup bean with
  | none => [.undefinedBean]
  | some record => if record.isLiteral then [.literalBean] else []

def argumentFaults (scope : Scope) : List Argument → List StepFault
  | [] => []
  | .value _ :: rest => scope.argumentFaults rest
  | .reference bean :: rest =>
      (if scope.Has bean then [] else [.undefinedReference bean]) ++ scope.argumentFaults rest

end Scope

/-- The faults of writing a type after `new` in the package of an application. -/
def TypeName.creationFaults (type application : TypeName) : List StepFault :=
  (if type.isPrimitive then [.primitive type] else []) ++
    (if '$' ∈ type.simple.text.toList then [.nested type] else []) ++
    (if type.package = [] ∧ application.package ≠ [] then
      [.unpackaged type application.packageText]
    else
      [])

/-- The fault of declaring parameter types for another number of arguments. -/
def Creation.countFaults (made : Creation) : List StepFault :=
  match made.parameterTypes with
  | none => []
  | some types =>
      if types.length = made.arguments.length then
        []
      else
        [.parameterCount types.length made.arguments.length]

/-- The faults of a step, in the order in which they are looked for. -/
def Step.faults (application : TypeName) (scope : Scope) : Step → List StepFault
  | .literal bean _ => scope.definitionFaults bean
  | .creation made =>
      scope.definitionFaults made.bean ++ made.type.creationFaults application ++
        scope.argumentFaults made.arguments ++ made.countFaults
  | .property set =>
      scope.targetFaults set.bean ++
        (if isIdentifier set.name then [] else [.propertyName set.name]) ++
        scope.argumentFaults [set.value]
  | .callback bean method _ =>
      scope.targetFaults bean ++ (if isIdentifier method then [] else [.methodName method])
  | .supplier _ type => [.supplier type]

namespace Scope

theorem definitionFaults_eq_nil_iff (scope : Scope) (bean : String) :
    scope.definitionFaults bean = [] ↔ ¬ scope.Has bean := by
  unfold definitionFaults
  split <;> simp_all

theorem targetFaults_eq_nil_iff (scope : Scope) (bean : String) :
    scope.targetFaults bean = [] ↔ scope.HasObject bean := by
  unfold targetFaults HasObject
  cases found : scope.lookup bean with
  | none =>
      simp
  | some record =>
      obtain ⟨type, isLiteral⟩ := record
      cases isLiteral <;> simp

theorem argumentFaults_eq_nil_iff (scope : Scope) (arguments : List Argument) :
    scope.argumentFaults arguments = [] ↔ ∀ argument ∈ arguments, argument.IsIn scope := by
  induction arguments with
  | nil =>
      simp [argumentFaults]
  | cons argument rest inductionHypothesis =>
      cases argument with
      | value literal =>
          simp [argumentFaults, inductionHypothesis, Argument.IsIn]
      | reference bean =>
          by_cases defined : scope.Has bean
          · simp [argumentFaults, inductionHypothesis, Argument.IsIn, defined]
          · simp [argumentFaults, Argument.IsIn, defined]

end Scope

theorem TypeName.creationFaults_eq_nil_iff (type application : TypeName) :
    type.creationFaults application = [] ↔
      type.isPrimitive = false ∧ '$' ∉ type.simple.text.toList ∧
        (type.package = [] → application.package = []) := by
  simp only [creationFaults, List.append_eq_nil_iff, ite_eq_right_iff, List.cons_ne_nil,
    imp_false, Bool.not_eq_true, not_and, ne_eq, Classical.not_not, and_assoc]

theorem Creation.countFaults_eq_nil_iff (made : Creation) :
    made.countFaults = [] ↔
      ∀ types ∈ made.parameterTypes, types.length = made.arguments.length := by
  unfold countFaults
  cases made.parameterTypes with
  | none =>
      simp
  | some types =>
      simp

theorem Creation.wellFormed_iff (application : TypeName) (scope : Scope) (made : Creation) :
    made.WellFormed application scope ↔
      (Step.creation made).faults application scope = [] := by
  simp only [Step.faults, List.append_eq_nil_iff, Scope.definitionFaults_eq_nil_iff,
    TypeName.creationFaults_eq_nil_iff, Scope.argumentFaults_eq_nil_iff,
    countFaults_eq_nil_iff]
  constructor
  · intro wellFormed
    exact ⟨⟨⟨wellFormed.new, wellFormed.notPrimitive, wellFormed.notNested,
      wellFormed.packaged⟩, wellFormed.defined⟩, wellFormed.counted⟩
  · rintro ⟨⟨⟨new, notPrimitive, notNested, packaged⟩, defined⟩, counted⟩
    exact ⟨new, notPrimitive, notNested, packaged, defined, counted⟩

theorem PropertyValue.wellFormed_iff (application : TypeName) (scope : Scope)
    (set : PropertyValue) :
    set.WellFormed scope ↔ (Step.property set).faults application scope = [] := by
  simp only [Step.faults, List.append_eq_nil_iff, Scope.targetFaults_eq_nil_iff,
    Scope.argumentFaults_eq_nil_iff, ite_eq_left_iff, List.cons_ne_nil, imp_false,
    Classical.not_not, List.mem_singleton, forall_eq]
  constructor
  · intro wellFormed
    exact ⟨⟨wellFormed.object, wellFormed.named⟩, wellFormed.defined⟩
  · rintro ⟨⟨object, named⟩, defined⟩
    exact ⟨object, named, defined⟩

/-- A step is well-formed when it has no fault. -/
theorem Step.wellFormed_iff_faults (application : TypeName) (scope : Scope) (step : Step) :
    step.WellFormed application scope ↔ step.faults application scope = [] := by
  cases step with
  | literal bean value =>
      exact (scope.definitionFaults_eq_nil_iff bean).symm
  | creation made =>
      exact made.wellFormed_iff application scope
  | property set =>
      exact set.wellFormed_iff application scope
  | callback bean method visibility =>
      simp only [WellFormed, faults, List.append_eq_nil_iff, Scope.targetFaults_eq_nil_iff,
        ite_eq_left_iff, List.cons_ne_nil, imp_false, Classical.not_not]
  | supplier bean type =>
      simp [WellFormed, faults]

instance (application : TypeName) (scope : Scope) (step : Step) :
    Decidable (step.WellFormed application scope) :=
  decidable_of_iff _ (step.wellFormed_iff_faults application scope).symm

instance Scope.decidableAdmits (application : TypeName) :
    (scope : Scope) → (steps : List Step) → Decidable (scope.Admits application steps)
  | _, [] => isTrue trivial
  | scope, step :: rest =>
      have := decidableAdmits application (scope.after step) rest
      inferInstanceAs (Decidable (_ ∧ _))

/-- A well-formed step defines a bean only if there is none of its name. -/
theorem Step.WellFormed.new {application : TypeName} {scope : Scope} {step : Step}
    (wellFormed : step.WellFormed application scope) {bean : String} {record : BeanRecord}
    (defined : step.defined? = some (bean, record)) : ¬ scope.Has bean := by
  cases step with
  | literal name value =>
      obtain ⟨rfl, -⟩ := Prod.mk.inj (Option.some.inj defined)
      exact wellFormed
  | creation made =>
      obtain ⟨rfl, -⟩ := Prod.mk.inj (Option.some.inj defined)
      exact Creation.WellFormed.new wellFormed
  | property set =>
      cases defined
  | callback name method visibility =>
      cases defined
  | supplier name type =>
      cases defined

namespace Scope

theorem has_after_iff (scope : Scope) (step : Step) (bean : String) :
    (scope.after step).Has bean ↔
      (∃ record, step.defined? = some (bean, record)) ∨ scope.Has bean := by
  rw [after]
  cases defined : step.defined? with
  | none =>
      simp
  | some definition =>
      obtain ⟨name, record⟩ := definition
      by_cases same : bean = name
      · simp [Has, same]
      · have different : (bean == name) = false := by simpa using same
        simp [Has, List.lookup_cons, different, Ne.symm same]

theorem has_iff_mem (scope : Scope) (bean : String) :
    scope.Has bean ↔ bean ∈ scope.map Prod.fst := by
  simp [Has, List.lookup_isSome_iff]

theorem has_after {scope : Scope} {bean : String} (known : scope.Has bean) (step : Step) :
    (scope.after step).Has bean :=
  (scope.has_after_iff step bean).2 (Or.inr known)

theorem has_after_defined (scope : Scope) {step : Step} {bean : String} {record : BeanRecord}
    (defined : step.defined? = some (bean, record)) : (scope.after step).Has bean :=
  (scope.has_after_iff step bean).2 (Or.inl ⟨record, defined⟩)

end Scope

/-- Steps are admitted when each is well-formed in the scope of those before it. -/
theorem Scope.admits_iff (application : TypeName) (scope : Scope) (steps : List Step) :
    scope.Admits application steps ↔
      ∀ earlier step later, steps = earlier ++ step :: later →
        step.WellFormed application (scope.afterAll earlier) := by
  induction steps generalizing scope with
  | nil =>
      simp [Admits]
  | cons first rest inductionHypothesis =>
      rw [Admits, inductionHypothesis]
      constructor
      · rintro ⟨firstFine, restFine⟩ earlier step later parts
        cases earlier with
        | nil =>
            obtain ⟨rfl, -⟩ := List.cons.inj parts
            exact firstFine
        | cons head earlier =>
            obtain ⟨rfl, restParts⟩ := List.cons.inj parts
            exact restFine earlier step later restParts
      · intro fine
        refine ⟨fine [] first rest rfl, fun earlier step later parts => ?_⟩
        exact fine (first :: earlier) step later (congrArg (first :: ·) parts)

namespace Contribution

/-- What a contributed hint requires: reflection needs a member, a resource a
pattern that is not blank, a proxy an interface. -/
def WellFormed : Contribution → Prop
  | .reflection hint => hint.resolvedMember.isSome = true
  | .resource pattern _ => Text.trim pattern.toList ≠ []
  | .proxy interfaces _ => interfaces ≠ []
  | .serialization .. => True

def faults : Contribution → List HintFault
  | .reflection hint =>
      if hint.resolvedMember.isSome then [] else [.noMember hint.access hint.type]
  | .resource pattern _ => if Text.trim pattern.toList = [] then [.blankPattern] else []
  | .proxy interfaces _ => if interfaces = [] then [.noInterface] else []
  | .serialization .. => []

theorem wellFormed_iff_faults (contribution : Contribution) :
    contribution.WellFormed ↔ contribution.faults = [] := by
  cases contribution with
  | reflection hint =>
      simp only [WellFormed, faults, ite_eq_left_iff, List.cons_ne_nil, imp_false,
        Classical.not_not]
  | resource pattern reachableIf =>
      simp [WellFormed, faults]
  | proxy interfaces reachableIf =>
      simp [WellFormed, faults]
  | serialization type reachableIf =>
      simp [WellFormed, faults]

instance (contribution : Contribution) : Decidable contribution.WellFormed :=
  decidable_of_iff _ contribution.wellFormed_iff_faults.symm

end Contribution

namespace Graph

/-- Whether every step is well-formed in the scope of the steps before it. -/
def HasWellFormedSteps (graph : Graph) : Prop :=
  ∀ earlier step later, graph.steps = earlier ++ step :: later →
    step.WellFormed graph.application (.of earlier)

/-- Whether every step and every contribution is well-formed. -/
structure WellFormed (graph : Graph) : Prop where
  steps : graph.HasWellFormedSteps
  contributions : ∀ contribution ∈ graph.contributions, contribution.WellFormed

theorem hasWellFormedSteps_iff (graph : Graph) :
    graph.HasWellFormedSteps ↔ Scope.Admits graph.application [] graph.steps :=
  (Scope.admits_iff graph.application [] graph.steps).symm

end Graph

end AheadOfTime
