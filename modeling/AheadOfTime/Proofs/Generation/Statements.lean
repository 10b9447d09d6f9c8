import AheadOfTime.Proofs.Generation.Writing

/-!
# What replaying statements declare, use and reach

The statements of a well-formed step declare the variable of the bean that it defines, use
variables of known beans only, reach the member that the step works on when it is hidden,
and hold plain names.
-/

namespace AheadOfTime

open Java

def Java.Statement.access? : Statement → Option Access
  | .createHidden _ type _ parameters _ =>
      some ⟨type.type, .ofConstructor (parameters.types.map TypeUse.type)⟩
  | .callHiddenSetter _ type _ setter parameters _ =>
      some ⟨type.type, .ofMethod setter (parameters.types.map TypeUse.type)⟩
  | .assignHidden _ type _ field _ => some ⟨type.type, .ofField field⟩
  | .callHidden _ type _ method parameters =>
      some ⟨type.type, .ofMethod method (parameters.types.map TypeUse.type)⟩
  | .declare .. | .create .. | .publish .. | .callSetter .. | .assign .. | .call .. => none

namespace Step

variable (naming : Naming) (scope : Scope)

theorem declared_statements (step : Step) :
    (step.statements naming scope).filterMap Statement.declared? =
      step.defined?.toList.map fun entry => naming.variableOf entry.1 := by
  cases step with
  | literal bean value =>
      rfl
  | creation made =>
      rw [statements, Creation.statement]
      cases made.visibility <;> rfl
  | property set =>
      rw [statements]
      cases scope.typeOf? set.bean with
      | none =>
          rfl
      | some type =>
          rw [Option.toList_some, List.map_singleton, PropertyValue.statement]
          cases set.injection <;> cases set.visibility <;> rfl
  | callback bean method visibility =>
      rw [statements]
      cases scope.typeOf? bean with
      | none =>
          rfl
      | some type =>
          cases visibility <;> rfl
  | supplier bean type =>
      rfl

theorem types_classArray (types : List TypeName) :
    (naming.classArray types).types.map TypeUse.type = types := by
  rw [Naming.classArray, List.map_map]
  exact List.map_id types

variable {naming scope}

theorem variable_of_operand {argument : Argument} (defined : argument.IsIn scope)
    {name : String} (isVariable : (argument.operand naming).named? = some name) :
    ∃ bean, scope.Has bean ∧ naming.variableOf bean = name := by
  cases argument with
  | value literal =>
      cases isVariable
  | reference bean =>
      exact ⟨bean, defined, Option.some.inj isVariable⟩

theorem variable_of_mem_operands {arguments : List Argument}
    (defined : ∀ argument ∈ arguments, argument.IsIn scope) {name : String}
    (member : name ∈ (arguments.map (·.operand naming)).filterMap Operand.named?) :
    ∃ bean, scope.Has bean ∧ naming.variableOf bean = name := by
  obtain ⟨operand, operandMember, isVariable⟩ := List.mem_filterMap.1 member
  obtain ⟨argument, argumentMember, rfl⟩ := List.mem_map.1 operandMember
  exact variable_of_operand (defined argument argumentMember) isVariable

theorem used_creation {application : TypeName} {made : Creation}
    (wellFormed : made.WellFormed application scope) {name : String}
    (member : name ∈ (made.statement naming scope).used) :
    ∃ bean, scope.Has bean ∧ naming.variableOf bean = name := by
  rw [Creation.statement] at member
  cases visible : made.visibility with
  | exposed =>
      rw [visible] at member
      exact variable_of_mem_operands wellFormed.defined member
  | hidden =>
      rw [visible] at member
      exact variable_of_mem_operands wellFormed.defined member

theorem used_property {set : PropertyValue} (wellFormed : set.WellFormed scope)
    {type : TypeName} {name : String}
    (member : name ∈ (set.statement naming scope type).used) :
    ∃ bean, scope.Has bean ∧ naming.variableOf bean = name := by
  have usedNames :
      (set.statement naming scope type).used =
        naming.variableOf set.bean :: (set.value.operand naming).named?.toList := by
    rw [PropertyValue.statement]
    cases set.injection <;> cases set.visibility <;> rfl
  rw [usedNames] at member
  rcases List.mem_cons.1 member with target | value
  · exact ⟨set.bean, wellFormed.object.has, target.symm⟩
  · exact variable_of_operand wellFormed.defined (Option.mem_toList.1 value)

theorem used_callback {type : TypeName} {bean method : String} {visibility : Visibility}
    {name : String}
    (member : name ∈ (naming.callStatement type bean method visibility).used) :
    naming.variableOf bean = name := by
  cases visibility with
  | exposed =>
      exact (List.mem_singleton.1 member).symm
  | hidden =>
      exact (List.mem_singleton.1 member).symm

/-- The statements of a well-formed step use variables of beans known before it, and
the one that it declares. -/
theorem wellScoped_statements {application : TypeName} {step : Step}
    (wellFormed : step.WellFormed application scope) {declared : List String}
    (known : ∀ bean, scope.Has bean → naming.variableOf bean ∈ declared) :
    Statement.WellScoped declared (step.statements naming scope) := by
  cases step with
  | literal bean value =>
      refine ⟨List.forall_mem_nil _, fun name member => ?_, trivial⟩
      rw [List.mem_singleton.1 member]
      exact List.mem_cons_self
  | creation made =>
      have first : (made.statement naming scope).declared? =
          some (naming.variableOf made.bean) := by
        rw [Creation.statement]
        cases made.visibility <;> rfl
      refine ⟨fun name member => ?_, fun name member => ?_, trivial⟩
      · obtain ⟨bean, defined, rfl⟩ := used_creation wellFormed member
        exact known bean defined
      · rw [List.mem_singleton.1 member, first]
        exact List.mem_cons_self
  | property set =>
      obtain ⟨type, owner⟩ := (PropertyValue.WellFormed.object wellFormed).typeOf?_eq
      rw [statements, owner]
      refine ⟨fun name member => ?_, trivial⟩
      obtain ⟨bean, defined, rfl⟩ := used_property wellFormed member
      exact known bean defined
  | callback bean method visibility =>
      obtain ⟨type, owner⟩ := wellFormed.1.typeOf?_eq
      rw [statements, owner]
      refine ⟨fun name member => ?_, trivial⟩
      rw [← used_callback member]
      exact known bean wellFormed.1.has
  | supplier bean type =>
      trivial

/-- The variables in the statements of a well-formed step are those of beans known
after it. -/
theorem variables_statements {application : TypeName} {step : Step}
    (wellFormed : step.WellFormed application scope) {statement : Statement}
    (member : statement ∈ step.statements naming scope) {name : String}
    (isVariable : name ∈ statement.declared? ∨ name ∈ statement.used) :
    ∃ bean, (scope.after step).Has bean ∧ naming.variableOf bean = name := by
  have fromDeclared :
      name ∈ (step.statements naming scope).filterMap Statement.declared? →
        ∃ bean, (scope.after step).Has bean ∧ naming.variableOf bean = name := by
    intro declared
    rw [declared_statements] at declared
    obtain ⟨⟨bean, record⟩, defined, same⟩ := List.mem_map.1 declared
    exact ⟨bean, scope.has_after_defined (Option.mem_toList.1 defined), same⟩
  rcases isVariable with declares | uses
  · exact fromDeclared (List.mem_filterMap.2 ⟨statement, member, declares⟩)
  · have known : ∀ bean, scope.Has bean →
        naming.variableOf bean ∈ scope.map fun entry => naming.variableOf entry.1 := by
      intro bean has
      obtain ⟨entry, entryMember, rfl⟩ := List.mem_map.1 ((scope.has_iff_mem bean).1 has)
      exact List.mem_map.2 ⟨entry, entryMember, rfl⟩
    obtain ⟨before, after, parts⟩ := List.append_of_mem member
    have wellScoped := wellScoped_statements wellFormed known
    rw [parts] at wellScoped
    rcases wellScoped.used_mem uses with earlier | outside
    · refine fromDeclared ?_
      rw [parts, List.filterMap_append]
      exact List.mem_append_left _ earlier
    · obtain ⟨entry, entryMember, same⟩ := List.mem_map.1 outside
      have has : scope.Has entry.1 :=
        (scope.has_iff_mem entry.1).2 (List.mem_map_of_mem entryMember)
      exact ⟨entry.1, Scope.has_after has step, same⟩

theorem plain_selected {application : TypeName} {step : Step}
    (wellFormed : step.WellFormed application scope) {statement : Statement}
    (member : statement ∈ step.statements naming scope) :
    ∀ name ∈ statement.selected?, Plain name := by
  intro name selected
  cases step with
  | literal bean value =>
      simp only [statements, List.mem_cons, List.not_mem_nil, or_false] at member
      rcases member with rfl | rfl <;> cases selected
  | creation made =>
      simp only [statements, List.mem_cons, List.not_mem_nil, or_false] at member
      rcases member with rfl | rfl
      · rw [Creation.statement] at selected
        cases visible : made.visibility <;> rw [visible] at selected <;> cases selected
      · cases selected
  | property set =>
      have plain : Plain set.name :=
        .of_isIdentifier (PropertyValue.WellFormed.named wellFormed)
      obtain ⟨type, -, rfl⟩ := List.mem_map.1 member
      rw [PropertyValue.statement] at selected
      cases injected : set.injection <;> cases visible : set.visibility <;>
        rw [injected, visible] at selected <;> cases selected
      · exact .setterName plain
      · exact plain
  | callback bean method visibility =>
      obtain ⟨type, -, rfl⟩ := List.mem_map.1 member
      cases visibility <;> cases selected
      exact .of_isIdentifier wellFormed.2
  | supplier bean type =>
      cases member

theorem types_spelled {step : Step} {statement : Statement}
    (member : statement ∈ step.statements naming scope) :
    ∀ type ∈ statement.types, Plain type.spelling := by
  intro type isType
  have writes : naming.Writes (fun _ => True) step.isHidden type :=
    writes_statements (fun _ => trivial) (fun _ _ _ => trivial) (fun _ _ => trivial) member type
      isType
  cases writes with
  | early _ written =>
      rw [written]
      exact .spelling _ _
  | late _ _ written =>
      rw [written]
      exact .spelling _ _

/-- The names in the statements of a well-formed step are plain. -/
theorem plainNames_statements {application : TypeName} {step : Step}
    (wellFormed : step.WellFormed application scope)
    (named : ∀ bean, (scope.after step).Has bean → Plain (naming.variableOf bean))
    {statement : Statement} (member : statement ∈ step.statements naming scope) :
    statement.PlainNames := by
  have plain : ∀ name, name ∈ statement.declared? ∨ name ∈ statement.used → Plain name := by
    intro name isVariable
    obtain ⟨bean, known, rfl⟩ := variables_statements wellFormed member isVariable
    exact named bean known
  exact ⟨fun name declares => plain name (Or.inl declares),
    fun name uses => plain name (Or.inr uses), plain_selected wellFormed member,
    types_spelled member⟩

end Step

end AheadOfTime
