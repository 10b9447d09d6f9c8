import AheadOfTime.Proofs.Generation.Replay

/-!
# Checks of a step

Each check of a draft looks for some of the faults of a step, in order.  A check that
finds none gives what the step needs to go on.
-/

namespace AheadOfTime

open Java

/-- A computation that looks for faults in order: it fails with the first of them, and
gives a value with the stated property when there is none. -/
def Reports {ε α : Type} (wrap : StepFault → ε) (faults : List StepFault)
    (value : α → Prop) : Except ε α → Prop
  | .ok result => faults = [] ∧ value result
  | .error error => ∃ fault, faults.head? = some fault ∧ error = wrap fault

namespace Reports

variable {ε α β : Type} {wrap : StepFault → ε} {faults later : List StepFault}
  {value : α → Prop} {nextValue : β → Prop} {result : Except ε α}

theorem pure {given : α} (holds : value given) : Reports wrap [] value (.ok given) :=
  ⟨rfl, holds⟩

theorem bind {next : α → Except ε β} (first : Reports wrap faults value result)
    (rest : ∀ given, value given → Reports wrap later nextValue (next given)) :
    Reports wrap (faults ++ later) nextValue (result >>= next) := by
  cases result with
  | ok given =>
      obtain ⟨nothing, holds⟩ := first
      rw [nothing, List.nil_append]
      exact rest given holds
  | error error =>
      obtain ⟨fault, head, same⟩ := first
      refine ⟨fault, ?_, same⟩
      rw [List.head?_append, head, Option.some_or]

theorem mapError {result : Except StepFault α} (first : Reports id faults value result)
    (wrap : StepFault → ε) : Reports wrap faults value (result.mapError wrap) := by
  cases result with
  | ok given =>
      exact first
  | error error =>
      obtain ⟨fault, head, same⟩ := first
      exact ⟨fault, head, congrArg wrap same⟩

theorem exists_ok (first : Reports wrap [] value result) :
    ∃ given, result = .ok given ∧ value given := by
  cases result with
  | ok given =>
      exact ⟨given, rfl, first.2⟩
  | error error =>
      obtain ⟨fault, head, -⟩ := first
      cases head

theorem eq_error {fault : StepFault} (head : faults.head? = some fault)
    (first : Reports wrap faults value result) : result = .error (wrap fault) := by
  cases result with
  | ok given =>
      obtain ⟨rfl, -⟩ := first
      cases head
  | error error =>
      obtain ⟨found, sameHead, rfl⟩ := first
      rw [head] at sameHead
      rw [Option.some.inj sameHead]

end Reports

namespace Draft

variable (draft : Draft)

def record (bean : Bean) : BeanRecord :=
  ⟨bean.type, bean.isLiteral⟩

def scope : Scope :=
  draft.beans.map fun entry => (entry.1, record entry.2)

theorem lookup_map_record (beans : List (String × Bean)) (name : String) :
    (beans.map fun entry => (entry.1, record entry.2)).lookup name =
      (beans.lookup name).map record := by
  induction beans with
  | nil =>
      rfl
  | cons entry beans inductionHypothesis =>
      obtain ⟨known, bean⟩ := entry
      simp only [List.map_cons, List.lookup_cons]
      cases name == known with
      | true =>
          rfl
      | false =>
          exact inductionHypothesis

theorem lookup_scope (name : String) :
    draft.scope.lookup name = (draft.bean? name).map record :=
  lookup_map_record draft.beans name

theorem typeOf?_scope {name : String} {bean : Bean} (found : draft.bean? name = some bean) :
    draft.scope.typeOf? name = some bean.type := by
  rw [Scope.typeOf?, lookup_scope, found]
  rfl

theorem scope_has_iff (name : String) : draft.scope.Has name ↔ draft.bean? name ≠ none := by
  rw [Scope.Has, lookup_scope]
  cases draft.bean? name <;> simp

theorem checkNew_reports (name : String) :
    Reports id (draft.scope.definitionFaults name) (fun _ => draft.bean? name = none)
      (draft.checkNew name) := by
  rw [Scope.definitionFaults, checkNew]
  cases found : draft.bean? name with
  | none =>
      rw [if_neg (by simp [scope_has_iff, found])]
      exact Reports.pure rfl
  | some bean =>
      rw [if_pos (by simp [scope_has_iff, found])]
      exact ⟨_, rfl, rfl⟩

theorem checkCreatable_reports (type : TypeName) :
    Reports id (type.creationFaults draft.application) (fun _ => True)
      (draft.checkCreatable type) := by
  rw [TypeName.creationFaults, checkCreatable]
  by_cases primitive : type.isPrimitive = true
  · rw [if_pos primitive, if_pos primitive]
    exact ⟨_, rfl, rfl⟩
  · rw [if_neg primitive, if_neg primitive]
    by_cases nested : '$' ∈ type.simple.text.toList
    · rw [if_pos nested, if_pos (List.contains_iff_mem.2 nested)]
      exact ⟨_, rfl, rfl⟩
    · rw [if_neg nested, if_neg (fun found => nested (List.contains_iff_mem.1 found))]
      by_cases unpackaged : type.package = [] ∧ draft.application.package ≠ []
      · rw [if_pos unpackaged, if_pos (by simp [unpackaged])]
        exact ⟨_, rfl, rfl⟩
      · rw [if_neg unpackaged, if_neg (by simpa using unpackaged)]
        exact Reports.pure trivial

theorem target_reports (name : String) :
    Reports id (draft.scope.targetFaults name) (fun bean => draft.bean? name = some bean)
      (draft.target name) := by
  rw [Scope.targetFaults, target, lookup_scope]
  cases draft.bean? name with
  | none =>
      exact ⟨_, rfl, rfl⟩
  | some bean =>
      by_cases isLiteral : bean.isLiteral = true
      · simp only [Option.map_some, record, isLiteral, if_true]
        exact ⟨_, rfl, rfl⟩
      · simp only [Option.map_some, record, isLiteral]
        exact Reports.pure rfl

end Draft

/-- A naming that gives the beans of a draft the variables they have. -/
def Naming.Knows (naming : Naming) (draft : Draft) : Prop :=
  ∀ name bean, draft.bean? name = some bean → naming.variableOf name = bean.localName

namespace Draft

variable (draft : Draft) {naming : Naming}

theorem operand_reports (knows : naming.Knows draft) (argument : Argument) :
    Reports id (draft.scope.argumentFaults [argument])
      (fun given => given.1 = argument.operand naming ∧
        argument.typeIn? draft.scope = some given.2)
      (draft.operand argument) := by
  cases argument with
  | value literal =>
      exact Reports.pure ⟨rfl, rfl⟩
  | reference name =>
      rw [operand]
      cases found : draft.bean? name with
      | none =>
          have undefined : ¬ draft.scope.Has name := by simp [scope_has_iff, found]
          refine ⟨.undefinedReference name, ?_, rfl⟩
          rw [Scope.argumentFaults, if_neg undefined]
          rfl
      | some bean =>
          have defined : draft.scope.Has name := by simp [scope_has_iff, found]
          refine ⟨?_, ?_, draft.typeOf?_scope found⟩
          · rw [Scope.argumentFaults, if_pos defined]
            rfl
          · rw [Argument.operand, knows name bean found]

theorem argumentFaults_cons (scope : Scope) (argument : Argument) (arguments : List Argument) :
    scope.argumentFaults (argument :: arguments) =
      scope.argumentFaults [argument] ++ scope.argumentFaults arguments := by
  cases argument with
  | value literal =>
      rfl
  | reference bean =>
      simp only [Scope.argumentFaults, List.append_nil]

theorem operands_reports (knows : naming.Knows draft) (arguments : List Argument) :
    Reports id (draft.scope.argumentFaults arguments)
      (fun given => given.map Prod.fst = arguments.map (·.operand naming) ∧
        given.map Prod.snd = arguments.filterMap (·.typeIn? draft.scope) ∧
        given.length = arguments.length)
      (draft.operands arguments) := by
  induction arguments with
  | nil =>
      exact Reports.pure ⟨rfl, rfl, rfl⟩
  | cons argument arguments inductionHypothesis =>
      rw [argumentFaults_cons]
      refine (draft.operand_reports knows argument).bind ?_
      rintro first ⟨firstOperand, firstType⟩
      rw [← List.append_nil (draft.scope.argumentFaults arguments)]
      refine inductionHypothesis.bind ?_
      rintro rest ⟨restOperands, restTypes, sameLength⟩
      refine Reports.pure ⟨?_, ?_, ?_⟩
      · rw [List.map_cons, List.map_cons, firstOperand, restOperands]
      · rw [List.map_cons, List.filterMap_cons_some firstType, restTypes]
      · rw [List.length_cons, List.length_cons, sameLength]

theorem parameterTypes_reports (made : Creation) {given : List TypeName}
    (sameLength : given.length = made.arguments.length) :
    Reports id made.countFaults (· = made.parameterTypes.getD given)
      (parameterTypes made.parameterTypes given) := by
  rw [Creation.countFaults]
  unfold parameterTypes
  cases made.parameterTypes with
  | none =>
      exact Reports.pure rfl
  | some types =>
      by_cases counted : types.length = made.arguments.length
      · simp only [sameLength, if_pos counted]
        exact Reports.pure rfl
      · simp only [sameLength, if_neg counted]
        exact ⟨_, rfl, rfl⟩

end Draft

end AheadOfTime
