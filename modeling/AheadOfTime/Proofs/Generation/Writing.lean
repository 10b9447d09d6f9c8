import AheadOfTime.Proofs.Generation.Replay
import AheadOfTime.Proofs.Java.Imports
import AheadOfTime.Proofs.Java.Statement

/-!
# How replaying statements write types

A statement writes a type with the imports as they are before the helper claims its
simple name, or as they are afterwards.  The types are those that the steps name, those
of beans defined before, types of `java.lang`, and the helper.
-/

namespace AheadOfTime

open Java

/-- How an occurrence is written while steps are replayed, some of which may be hidden:
the helper has not claimed its simple name, or it has for a hidden step. -/
inductive Naming.Writes (naming : Naming) (meant : TypeName → Prop) (hidden : Bool)
    (use : TypeUse) : Prop where
  | early {type : TypeName} (isMeant : meant type) (written : use = naming.imports.use type)
  | late {type : TypeName} (isHidden : hidden = true)
      (isMeant : meant type ∨ type = naming.helper)
      (written : use = naming.claimed.imports.use type)

section

variable {naming : Naming} {scope : Scope} {meant : TypeName → Prop}

theorem Naming.Writes.mono {use : TypeUse} {hidden more : Bool}
    (writes : naming.Writes meant hidden use) (contained : hidden = true → more = true) :
    naming.Writes meant more use := by
  cases writes with
  | early isMeant written =>
      exact .early isMeant written
  | late isHidden isMeant written =>
      exact .late (contained isHidden) isMeant written

theorem Naming.claimed_claimed (naming : Naming) : naming.claimed.claimed = naming.claimed := by
  rw [claimed, claimed, Imports.claim_claim]

/-- What is written after a step could have been written by it if it is hidden. -/
theorem Naming.Writes.of_after {use : TypeUse} {step : Step} {hidden : Bool}
    (writes : (naming.after step).Writes meant hidden use) :
    naming.Writes meant (step.isHidden || hidden) use := by
  rw [after] at writes
  cases stepHidden : step.isHidden with
  | true =>
      rw [stepHidden, if_pos rfl] at writes
      cases writes with
      | early isMeant written =>
          exact .late rfl (.inl isMeant) written
      | late isHidden isMeant written =>
          rw [claimed_claimed] at written
          exact .late rfl isMeant written
  | false =>
      rw [stepHidden] at writes
      exact writes

theorem Draft.mem_literalTypes {literal : Literal} {arguments : List Argument}
    (member : Argument.value literal ∈ arguments) : literal.type ∈ literalTypes arguments :=
  List.mem_filterMap.2 ⟨_, member, rfl⟩

theorem Argument.meant_of_typeIn?
    (known : ∀ bean type, scope.typeOf? bean = some type → meant type)
    {arguments : List Argument} (literals : ∀ type ∈ Draft.literalTypes arguments, meant type)
    {argument : Argument} (member : argument ∈ arguments) {type : TypeName}
    (typed : argument.typeIn? scope = some type) : meant type := by
  cases argument with
  | value literal =>
      obtain rfl := Option.some.inj typed
      exact literals _ (Draft.mem_literalTypes member)
  | reference bean =>
      exact known bean type typed

theorem Creation.meant_of_mem_parameters
    (known : ∀ bean type, scope.typeOf? bean = some type → meant type) {made : Creation}
    (named : ∀ type ∈ Draft.typesOf (.creation made), meant type) :
    ∀ type ∈ made.parameters scope, meant type := by
  intro type member
  rw [parameters] at member
  cases declared : made.parameterTypes with
  | some types =>
      rw [declared] at member
      apply named
      rw [Draft.typesOf, declared]
      exact List.mem_append_left _ (List.mem_cons_of_mem _ member)
  | none =>
      rw [declared] at member
      obtain ⟨argument, argumentMember, typed⟩ := List.mem_filterMap.1 member
      have literals : ∀ literal ∈ Draft.literalTypes made.arguments, meant literal :=
        fun literal literalMember => named literal (List.mem_append_right _ literalMember)
      exact Argument.meant_of_typeIn? known literals argumentMember typed

theorem PropertyValue.meant_of_mem_parameters
    (known : ∀ bean type, scope.typeOf? bean = some type → meant type) {set : PropertyValue}
    (named : ∀ type ∈ Draft.typesOf (.property set), meant type) :
    ∀ type ∈ set.parameters scope, meant type := by
  intro type member
  rw [parameters, Option.mem_toList, Option.or_eq_some_iff] at member
  rcases member with declared | ⟨-, typed⟩
  · exact named _ (List.mem_append_left _ (Option.mem_toList.2 declared))
  · have literals : ∀ literal ∈ Draft.literalTypes [set.value], meant literal :=
      fun literal literalMember => named literal (List.mem_append_right _ literalMember)
    exact Argument.meant_of_typeIn? known literals List.mem_cons_self typed

namespace Step

/-- What the statement of a hidden step writes, apart from the type of an object. -/
theorem writes_hidden (lang : ∀ simple, meant (.lang simple)) {type : TypeUse}
    (typeWritten : naming.Writes meant true type) {parameters : List TypeName}
    (parametersMeant : ∀ parameter ∈ parameters, meant parameter) :
    ∀ use ∈ naming.claimed.imports.use naming.helper :: type ::
        (naming.claimed.classArray parameters).element ::
          (naming.claimed.classArray parameters).types,
      naming.Writes meant true use := by
  simp only [List.forall_mem_cons]
  refine ⟨.late rfl (.inr rfl) rfl, typeWritten, .late rfl (.inl (lang _)) rfl, ?_⟩
  intro use member
  obtain ⟨parameter, parameterMember, rfl⟩ := List.mem_map.1 member
  exact .late rfl (.inl (parametersMeant parameter parameterMember)) rfl

/-- A step writes the types that it names, those of beans defined before and types of
`java.lang`, and the helper when it is hidden. -/
theorem writes_statements (lang : ∀ simple, meant (.lang simple))
    (known : ∀ bean type, scope.typeOf? bean = some type → meant type) {step : Step}
    (named : ∀ type ∈ Draft.typesOf step, meant type) {statement : Statement}
    (member : statement ∈ step.statements naming scope) :
    ∀ use ∈ statement.types, naming.Writes meant step.isHidden use := by
  cases step with
  | literal bean value =>
      simp only [statements, List.mem_cons, List.not_mem_nil, or_false] at member
      rcases member with rfl | rfl
      · intro use isType
        rw [List.mem_singleton.1 isType]
        exact .early (named _ List.mem_cons_self) rfl
      · exact List.forall_mem_nil _
  | creation made =>
      have madeMeant : meant made.type := named _ List.mem_cons_self
      simp only [statements, List.mem_cons, List.not_mem_nil, or_false] at member
      rcases member with rfl | rfl
      · rw [Creation.statement, isHidden]
        cases made.visibility with
        | exposed =>
            intro use isType
            rw [List.mem_singleton.1 isType]
            exact .early madeMeant rfl
        | hidden =>
            exact writes_hidden lang (.early madeMeant rfl)
              (Creation.meant_of_mem_parameters known named)
      · exact List.forall_mem_nil _
  | property set =>
      obtain ⟨type, owner, rfl⟩ := List.mem_map.1 member
      have ownerMeant : meant type := known _ _ (Option.mem_toList.1 owner)
      have parametersMeant := PropertyValue.meant_of_mem_parameters known named
      have typeWritten : naming.Writes meant true (naming.claimed.imports.use type) :=
        .late rfl (.inl ownerMeant) rfl
      have hiddenWritten := writes_hidden lang typeWritten parametersMeant
      rw [PropertyValue.statement, isHidden]
      cases set.injection <;> cases set.visibility
      · exact List.forall_mem_nil _
      · exact hiddenWritten
      · exact List.forall_mem_nil _
      · intro use isType
        apply hiddenWritten
        exact List.mem_append_left _ isType
  | callback bean method visibility =>
      obtain ⟨type, owner, rfl⟩ := List.mem_map.1 member
      have ownerMeant : meant type := known _ _ (Option.mem_toList.1 owner)
      cases visibility with
      | exposed =>
          exact List.forall_mem_nil _
      | hidden =>
          exact writes_hidden lang (.late rfl (.inl ownerMeant) rfl) (List.forall_mem_nil _)
  | supplier bean type =>
      cases member

end Step

theorem Scope.meant_of_typeOf?_after_of_defined
    (known : ∀ bean type, scope.typeOf? bean = some type → meant type) {step : Step}
    (definedMeant : ∀ name record, step.defined? = some (name, record) → meant record.type)
    (bean : String) (type : TypeName) (typed : (scope.after step).typeOf? bean = some type) :
    meant type := by
  rw [after] at typed
  cases defined : step.defined? with
  | none =>
      rw [defined] at typed
      exact known bean type typed
  | some definition =>
      obtain ⟨name, record⟩ := definition
      have recordMeant := definedMeant name record defined
      rw [defined, typeOf?, Option.toList_some, List.singleton_append, List.lookup_cons] at typed
      cases same : bean == name with
      | true =>
          rw [same] at typed
          obtain rfl := Option.some.inj typed
          exact recordMeant
      | false =>
          rw [same] at typed
          exact known bean type typed

theorem Scope.meant_of_typeOf?_after
    (known : ∀ bean type, scope.typeOf? bean = some type → meant type) {step : Step}
    (named : ∀ type ∈ Draft.typesOf step, meant type) (bean : String) (type : TypeName)
    (typed : (scope.after step).typeOf? bean = some type) : meant type := by
  refine meant_of_typeOf?_after_of_defined known (fun name record defined => ?_) bean type typed
  cases step with
  | literal literalBean value =>
      obtain ⟨-, rfl⟩ := Prod.mk.inj (Option.some.inj defined)
      exact named _ List.mem_cons_self
  | creation made =>
      obtain ⟨-, rfl⟩ := Prod.mk.inj (Option.some.inj defined)
      exact named _ List.mem_cons_self
  | property set =>
      cases defined
  | callback other method visibility =>
      cases defined
  | supplier other supplied =>
      cases defined

/-- The replay of steps writes the types that they name, those of beans defined before
and types of `java.lang`, and the helper when a step is hidden. -/
theorem Naming.writes_replay (lang : ∀ simple, meant (.lang simple))
    (known : ∀ bean type, scope.typeOf? bean = some type → meant type) {steps : List Step}
    (named : ∀ step ∈ steps, ∀ type ∈ Draft.typesOf step, meant type) :
    ∀ use ∈ (naming.replay scope steps).flatMap Statement.types,
      naming.Writes meant (steps.any Step.isHidden) use := by
  induction steps generalizing naming scope with
  | nil =>
      exact List.forall_mem_nil _
  | cons step rest inductionHypothesis =>
      obtain ⟨stepNamed, restNamed⟩ := List.forall_mem_cons.1 named
      intro use member
      rw [replay, List.flatMap_append, List.mem_append] at member
      rw [List.any_cons]
      rcases member with here | later
      · obtain ⟨statement, statementMember, isType⟩ := List.mem_flatMap.1 here
        have writes := Step.writes_statements lang known stepNamed statementMember use isType
        exact writes.mono fun isHidden => by rw [isHidden, Bool.true_or]
      · -- Later steps are written with the naming after this one, which `of_after` undoes.
        have knownAfter := Scope.meant_of_typeOf?_after known stepNamed
        exact (inductionHypothesis knownAfter restNamed use later).of_after

end

end AheadOfTime
