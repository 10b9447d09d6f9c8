import AheadOfTime.Proofs.Graph.Scope

/-!
# Hidden steps and the members they use

A step that works on a hidden member uses it by reflection.  Which type and which
member that is follows from the step and the scope it is in.
-/

namespace AheadOfTime

open Java

/-- A use of a member by reflection. -/
structure Access where
  type : TypeName
  member : Member
  deriving DecidableEq

def Step.isHidden : Step → Bool
  | .creation made => made.visibility == .hidden
  | .property set => set.visibility == .hidden
  | .callback _ _ visibility => visibility == .hidden
  | .literal .. | .supplier .. => false

/-- The type of an argument: that of the literal, or the one recorded for the bean. -/
def Argument.typeIn? (scope : Scope) : Argument → Option TypeName
  | .value literal => some literal.type
  | .reference bean => scope.typeOf? bean

/-- The parameter types of a constructor: those declared, or else those of the
arguments. -/
def Creation.parameters (scope : Scope) (made : Creation) : List TypeName :=
  made.parameterTypes.getD (made.arguments.filterMap (·.typeIn? scope))

/-- The parameter types of a setter: the one declared, or else that of the value. -/
def PropertyValue.parameters (scope : Scope) (set : PropertyValue) : List TypeName :=
  (set.parameterType.or (set.value.typeIn? scope)).toList

namespace Step

def owner? (scope : Scope) : Step → Option TypeName
  | .creation made => some made.type
  | .property set => scope.typeOf? set.bean
  | .callback bean _ _ => scope.typeOf? bean
  | .literal .. | .supplier .. => none

def member? (scope : Scope) : Step → Option Member
  | .creation made => some (.ofConstructor (made.parameters scope))
  | .property set =>
      match set.injection with
      | .setter => some (.ofMethod (setterName set.name) (set.parameters scope))
      | .field => some (.ofField set.name)
  | .callback _ method _ => some (.ofMethod method [])
  | .literal .. | .supplier .. => none

/-- What a step uses by reflection, if its member is hidden. -/
def access? (scope : Scope) (step : Step) : Option Access :=
  if step.isHidden then
    match step.owner? scope, step.member? scope with
    | some type, some member => some ⟨type, member⟩
    | _, _ => none
  else
    none

end Step

/-- What steps use by reflection, in order. -/
def Scope.accesses (scope : Scope) : List Step → List Access
  | [] => []
  | step :: rest => (step.access? scope).toList ++ (scope.after step).accesses rest

/-- What the steps of a graph use by reflection, in order. -/
def Graph.accesses (graph : Graph) : List Access :=
  Scope.accesses [] graph.steps

theorem Scope.HasObject.typeOf?_eq {scope : Scope} {bean : String}
    (object : scope.HasObject bean) : ∃ type, scope.typeOf? bean = some type := by
  obtain ⟨type, found⟩ := object
  exact ⟨type, by rw [typeOf?, found]; rfl⟩

theorem Scope.HasObject.has {scope : Scope} {bean : String}
    (object : scope.HasObject bean) : scope.Has bean := by
  obtain ⟨type, found⟩ := object
  rw [Has, found]
  rfl

namespace Step

theorem access?_of_exposed {step : Step} (exposed : step.isHidden = false) (scope : Scope) :
    step.access? scope = none := by
  rw [access?, exposed]
  rfl

theorem access?_of_hidden {application : TypeName} {scope : Scope} {step : Step}
    (hidden : step.isHidden = true) (wellFormed : step.WellFormed application scope) :
    ∃ access, step.access? scope = some access := by
  have named : ∃ type, step.owner? scope = some type := by
    cases step with
    | literal bean value =>
        cases hidden
    | creation made =>
        exact ⟨made.type, rfl⟩
    | property set =>
        exact wellFormed.object.typeOf?_eq
    | callback bean method visibility =>
        exact wellFormed.1.typeOf?_eq
    | supplier bean type =>
        cases hidden
  have reached : ∃ member, step.member? scope = some member := by
    cases step with
    | literal bean value =>
        cases hidden
    | creation made =>
        exact ⟨_, rfl⟩
    | property set =>
        rw [member?]
        cases set.injection <;> exact ⟨_, rfl⟩
    | callback bean method visibility =>
        exact ⟨_, rfl⟩
    | supplier bean type =>
        cases hidden
  obtain ⟨type, owner⟩ := named
  obtain ⟨member, found⟩ := reached
  exact ⟨⟨type, member⟩, by rw [access?, if_pos hidden, owner, found]⟩

end Step

namespace Scope

/-- Admitted steps have as many accesses as there are hidden ones among them. -/
theorem length_accesses {application : TypeName} {scope : Scope} {steps : List Step}
    (admitted : scope.Admits application steps) :
    (scope.accesses steps).length = steps.countP Step.isHidden := by
  induction steps generalizing scope with
  | nil =>
      rfl
  | cons step rest inductionHypothesis =>
      obtain ⟨wellFormed, restAdmitted⟩ := admitted
      rw [accesses, List.length_append, inductionHypothesis restAdmitted]
      by_cases hidden : step.isHidden = true
      · obtain ⟨access, found⟩ := Step.access?_of_hidden hidden wellFormed
        rw [found, List.countP_cons_of_pos hidden, Option.toList_some, List.length_singleton,
          Nat.add_comm]
      · rw [List.countP_cons_of_neg hidden,
          Step.access?_of_exposed (eq_false_of_ne_true hidden), Option.toList_none,
          List.length_nil, Nat.zero_add]

end Scope

end AheadOfTime
