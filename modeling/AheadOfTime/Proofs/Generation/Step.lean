import AheadOfTime.Proofs.Generation.Checks
import AheadOfTime.Proofs.Hint.Registry
import AheadOfTime.Proofs.Java.Imports
import AheadOfTime.Proofs.TypeName.Issued

/-!
# What one step does to a draft

A step fails with its first fault.  A step without faults always goes through, and
the draft after it is written down here in one piece.
-/

namespace AheadOfTime

open Java

def Access.registration (application : TypeName) (access : Access) : Registration :=
  .ofUse application access.type access.member

/-- The uses of the helper after a step that needs it. -/
def Step.mark (uses : HelperUses) : Step → HelperUses
  | .creation _ => { uses with instantiate := true }
  | .property set =>
      match set.injection with
      | .setter => { uses with invoke := true }
      | .field => { uses with setField := true }
  | .callback .. => { uses with invoke := true }
  | .literal .. | .supplier .. => uses

namespace Draft

variable (draft : Draft)

theorem isFeature_initializerFeature : IssuedNames.IsFeature initializerFeature :=
  List.all_eq_true.1 (by decide +kernel)

theorem isFeature_helperFeature : IssuedNames.IsFeature helperFeature :=
  List.all_eq_true.1 (by decide +kernel)

def helperName : TypeName :=
  match draft.helper with
  | some (name, _) => name
  | none => draft.names.next draft.application helperFeature

def helperUses : HelperUses :=
  match draft.helper with
  | some (_, uses) => uses
  | none => ⟨false, false, false⟩

def helperNames : IssuedNames :=
  match draft.helper with
  | some _ => draft.names
  | none => draft.names.afterNext draft.application helperFeature

/-- A helper that has a name has claimed its simple name. -/
def Settled : Prop :=
  ∀ name uses, draft.helper = some (name, uses) → draft.imports.claim name = draft.imports

def helped (mark : HelperUses → HelperUses) : Draft :=
  { draft with
    imports := draft.imports.claim draft.helperName
    names := draft.helperNames
    helper := some (draft.helperName, mark draft.helperUses) }

theorem useHelper_eq (settled : draft.Settled) (mark : HelperUses → HelperUses) :
    draft.useHelper mark =
      .ok ((draft.imports.claim draft.helperName).use draft.helperName, draft.helped mark) := by
  unfold useHelper helped helperName helperNames helperUses
  cases found : draft.helper with
  | some helper =>
      obtain ⟨name, uses⟩ := helper
      simp only [settled name uses found]
  | none =>
      simp only [draft.names.issue_eq_next draft.application isFeature_helperFeature]

def beansAfter (step : Step) : List (String × Bean) :=
  match step.defined? with
  | none => draft.beans
  | some (name, record) =>
      (name, ⟨(draft.locals.allocate name).1, record.type, record.isLiteral⟩) :: draft.beans

def localsAfter (step : Step) : Locals :=
  match step.defined? with
  | none => draft.locals
  | some (name, _) => (draft.locals.allocate name).2

def variableIn (beans : List (String × Bean)) (name : String) : String :=
  (beans.lookup name).elim "" Bean.localName

/-- How a step is written: with the variable of the bean that it defines, if any. -/
def namingAt (step : Step) : Naming :=
  ⟨variableIn (draft.beansAfter step), draft.helperName, draft.imports⟩

def after (step : Step) : Draft where
  application := draft.application
  imports := ((draft.namingAt step).after step).imports
  locals := draft.localsAfter step
  beans := draft.beansAfter step
  statements := draft.statements ++ step.statements (draft.namingAt step) draft.scope
  registrations :=
    draft.registrations ++
      (step.access? draft.scope).toList.map (Access.registration draft.application)
  helper :=
    if step.isHidden then
      some (draft.helperName, step.mark draft.helperUses)
    else
      draft.helper
  names := if step.isHidden then draft.helperNames else draft.names

theorem namingAt_knows {step : Step}
    (new : ∀ name record, step.defined? = some (name, record) → draft.bean? name = none) :
    (draft.namingAt step).Knows draft := by
  intro name bean found
  unfold namingAt variableIn beansAfter
  cases defined : step.defined? with
  | none =>
      simp only [bean?] at found
      simp only [found, Option.elim_some]
  | some definition =>
      obtain ⟨newName, record⟩ := definition
      have other : (name == newName) = false := by
        rw [beq_eq_false_iff_ne]
        rintro rfl
        rw [new name record defined] at found
        cases found
      rw [bean?] at found
      simp only [List.lookup_cons, other, found, Option.elim_some]

theorem variableOf_namingAt {step : Step} {name : String} {record : BeanRecord}
    (defined : step.defined? = some (name, record)) :
    (draft.namingAt step).variableOf name = (draft.locals.allocate name).1 := by
  unfold namingAt variableIn beansAfter
  simp only [defined, List.lookup_cons_self, Option.elim_some]

theorem addLiteral_eq (bean : String) (value : Literal) :
    draft.addLiteral bean value = draft.after (.literal bean value) := by
  have chosen := draft.variableOf_namingAt (Eq.refl (Step.literal bean value).defined?)
  simp only [after, Step.statements, chosen]
  simp [addLiteral, allocate, emit, define, Naming.after, Step.isHidden, beansAfter,
    localsAfter, Step.defined?, Step.access?, namingAt]

theorem addObject_eq (settled : draft.Settled) {made : Creation} {operands : List Operand}
    (sameOperands :
      operands = made.arguments.map (·.operand (draft.namingAt (.creation made)))) :
    draft.addObject made operands (made.parameters draft.scope) =
      .ok (draft.after (.creation made)) := by
  have chosen := draft.variableOf_namingAt (Eq.refl (Step.creation made).defined?)
  have settledAllocated : (draft.allocate made.bean).2.Settled := settled
  unfold addObject
  cases visible : made.visibility with
  | exposed =>
      have exposed : (Step.creation made).isHidden = false := by
        rw [Step.isHidden, visible]
        rfl
      simp only [after, Step.statements, Creation.statement, visible, ← sameOperands, chosen,
        Naming.after, exposed, Step.access?_of_exposed exposed, Option.toList_none,
        List.map_nil, List.append_nil]
      simp only [emit, define, bind, Except.bind, pure, Except.pure, List.append_assoc]
      rfl
  | hidden =>
      have hidden : (Step.creation made).isHidden = true := by
        rw [Step.isHidden, visible]
        rfl
      have access : (Step.creation made).access? draft.scope =
          some ⟨made.type, .ofConstructor (made.parameters draft.scope)⟩ := by
        rw [Step.access?, if_pos hidden]
        rfl
      simp only [useHelper_eq _ settledAllocated]
      simp only [after, Step.statements, Creation.statement, visible, ← sameOperands, chosen,
        Naming.after, hidden, if_true, access, Option.toList_some, List.map_cons, List.map_nil]
      simp only [emit, define, registerMember, bind, Except.bind, pure, Except.pure,
        List.append_assoc]
      rfl

theorem after_of_exposed {step : Step} (undefined : step.defined? = none)
    (exposed : step.isHidden = false) :
    draft.after step = draft.emit (step.statements (draft.namingAt step) draft.scope) := by
  simp only [after, Naming.after, exposed, Step.access?_of_exposed exposed, beansAfter,
    localsAfter, undefined, Option.toList_none, List.map_nil, List.append_nil]
  rfl

theorem after_of_hidden {step : Step} {access : Access} (undefined : step.defined? = none)
    (hidden : step.isHidden = true) (found : step.access? draft.scope = some access) :
    draft.after step =
      ((draft.helped (step.mark ·)).emit
        (step.statements (draft.namingAt step) draft.scope)).registerMember
          access.type access.member := by
  simp only [after, Naming.after, hidden, if_true, found, beansAfter, localsAfter, undefined,
    Option.toList_some, List.map_cons, List.map_nil]
  rfl

theorem addProperty_eq (settled : draft.Settled) {set : PropertyValue} {bean : Bean}
    (found : draft.bean? set.bean = some bean) {value : Operand}
    (sameValue : value = set.value.operand (draft.namingAt (.property set)))
    {parameter : TypeName} (typed : set.parameters draft.scope = [parameter]) :
    draft.addProperty set bean value parameter = .ok (draft.after (.property set)) := by
  have chosen : (draft.namingAt (.property set)).variableOf set.bean = bean.localName :=
    draft.namingAt_knows (fun _ _ defined => by cases defined) set.bean bean found
  have owner : draft.scope.typeOf? set.bean = some bean.type := draft.typeOf?_scope found
  have statements : (Step.property set).statements (draft.namingAt (.property set)) draft.scope =
      [set.statement (draft.namingAt (.property set)) draft.scope bean.type] := by
    rw [Step.statements, owner]
    rfl
  unfold addProperty
  cases visible : set.visibility with
  | exposed =>
      have exposed : (Step.property set).isHidden = false := by
        rw [Step.isHidden, visible]
        rfl
      rw [draft.after_of_exposed rfl exposed, statements]
      cases injected : set.injection <;>
        simp only [PropertyValue.statement, injected, visible, chosen, sameValue] <;> rfl
  | hidden =>
      have hidden : (Step.property set).isHidden = true := by
        rw [Step.isHidden, visible]
        rfl
      cases injected : set.injection with
      | setter =>
          have access : (Step.property set).access? draft.scope =
              some ⟨bean.type, .ofMethod (setterName set.name) [parameter]⟩ := by
            simp only [Step.access?, hidden, if_true, Step.owner?, owner, Step.member?, injected,
              typed]
          rw [draft.after_of_hidden rfl hidden access, statements]
          simp only [useHelper_eq _ settled, PropertyValue.statement, injected, visible, chosen,
            sameValue, typed, Step.mark]
          rfl
      | field =>
          have access : (Step.property set).access? draft.scope =
              some ⟨bean.type, .ofField set.name⟩ := by
            simp only [Step.access?, hidden, if_true, Step.owner?, owner, Step.member?, injected]
          rw [draft.after_of_hidden rfl hidden access, statements]
          simp only [useHelper_eq _ settled, PropertyValue.statement, injected, visible, chosen,
            sameValue, Step.mark]
          rfl

theorem addCallback_eq (settled : draft.Settled) {name : String} {bean : Bean}
    (found : draft.bean? name = some bean) (method : String) (visibility : Visibility) :
    draft.addCallback bean method visibility =
      .ok (draft.after (.callback name method visibility)) := by
  have chosen :
      (draft.namingAt (.callback name method visibility)).variableOf name = bean.localName :=
    draft.namingAt_knows (fun _ _ defined => by cases defined) name bean found
  have owner : draft.scope.typeOf? name = some bean.type := draft.typeOf?_scope found
  unfold addCallback
  cases visibility with
  | exposed =>
      rw [draft.after_of_exposed rfl rfl]
      simp only [Step.statements, owner, Option.toList_some, List.map_cons, List.map_nil,
        Naming.callStatement, chosen]
      rfl
  | hidden =>
      have access : (Step.callback name method .hidden).access? draft.scope =
          some ⟨bean.type, .ofMethod method []⟩ := by
        simp only [Step.access?, Step.isHidden, Step.owner?, owner, Step.member?]
        rfl
      rw [draft.after_of_hidden rfl rfl access]
      simp only [useHelper_eq _ settled, Step.statements, owner, Option.toList_some,
        List.map_cons, List.map_nil, Naming.callStatement, chosen]
      rfl

/-- A step fails with its first fault, and without faults leads to the draft after
it. -/
theorem addStep_reports (settled : draft.Settled) (index : Nat) (step : Step) :
    Reports (.step index step) (step.faults draft.application draft.scope)
      (· = draft.after step) (draft.addStep index step) := by
  cases step with
  | literal bean value =>
      -- `Reports.bind` wants faults of a rest, and nothing is checked after this.
      rw [Step.faults, ← List.append_nil (draft.scope.definitionFaults bean)]
      refine ((draft.checkNew_reports bean).mapError _).bind fun _ _ => ?_
      exact Reports.pure (draft.addLiteral_eq bean value)
  | creation made =>
      rw [Step.faults, List.append_assoc, List.append_assoc]
      refine ((draft.checkNew_reports made.bean).mapError _).bind fun _ new => ?_
      refine ((draft.checkCreatable_reports made.type).mapError _).bind fun _ _ => ?_
      have knows : (draft.namingAt (.creation made)).Knows draft := by
        refine draft.namingAt_knows fun name record defined => ?_
        obtain ⟨rfl, -⟩ := Prod.mk.inj (Option.some.inj defined)
        exact new
      refine ((draft.operands_reports knows made.arguments).mapError _).bind ?_
      rintro given ⟨operands, types, sameLength⟩
      rw [← List.append_nil made.countFaults]
      have counted : (given.map Prod.snd).length = made.arguments.length := by
        rw [List.length_map, sameLength]
      refine ((parameterTypes_reports made counted).mapError _).bind ?_
      rintro parameters rfl
      rw [types]
      have added := draft.addObject_eq settled operands
      rw [Creation.parameters] at added
      rw [added]
      exact Reports.pure rfl
  | property set =>
      rw [Step.faults, List.append_assoc]
      refine ((draft.target_reports set.bean).mapError _).bind fun bean found => ?_
      by_cases named : isIdentifier set.name = true
      · simp only [named, Bool.not_true, Bool.false_eq_true, if_false, if_true,
          List.nil_append]
        have knows : (draft.namingAt (.property set)).Knows draft :=
          draft.namingAt_knows fun _ _ defined => by cases defined
        rw [← List.append_nil (draft.scope.argumentFaults [set.value])]
        refine ((draft.operand_reports knows set.value).mapError _).bind ?_
        rintro ⟨value, type⟩ ⟨sameValue, typed⟩
        have parameters :
            set.parameters draft.scope = [set.parameterType.getD type] := by
          rw [PropertyValue.parameters, typed]
          cases set.parameterType <;> rfl
        simp only [draft.addProperty_eq settled found sameValue parameters]
        exact Reports.pure rfl
      · simp only [named]
        exact ⟨_, rfl, rfl⟩
  | callback bean method visibility =>
      rw [Step.faults]
      refine ((draft.target_reports bean).mapError _).bind fun target found => ?_
      by_cases named : isIdentifier method = true
      · simp only [named, Bool.not_true, Bool.false_eq_true, if_false, if_true]
        rw [draft.addCallback_eq settled found method visibility]
        exact Reports.pure rfl
      · simp only [named]
        exact ⟨_, rfl, rfl⟩
  | supplier bean type =>
      exact ⟨.supplier type, rfl, rfl⟩

end Draft

end AheadOfTime
