import AheadOfTime.Proofs.Generation.Outcome
import AheadOfTime.Proofs.Hint.Effect

/-!
# The effect of contributed hints

A contributed hint is in effect after a generation, under the kind of access that it
declares.  The one exception is a method that is called as constructors are: it is filed
under the constructors.
-/

namespace AheadOfTime

namespace Contribution

def subject : Contribution → Subject
  | .reflection hint => .type hint.type
  | .resource pattern _ => .resource pattern
  | .proxy interfaces _ => .proxy interfaces
  | .serialization type _ => .type type

def access : Contribution → AccessKind
  | .reflection hint => hint.access
  | .resource .. => .loadResource
  | .proxy .. => .proxy
  | .serialization .. => .serialize

def hint? : Contribution → Option MemberHint
  | .reflection hint => hint.resolvedMember.map fun member => ⟨member, hint.mode⟩
  | .resource .. | .proxy .. | .serialization .. => none

def reachableIf : Contribution → Option TypeName
  | .reflection hint => hint.reachableIf
  | .resource _ reachableIf => reachableIf
  | .proxy _ reachableIf => reachableIf
  | .serialization _ reachableIf => reachableIf

/-- A method that has the name of the constructors. -/
def IsMisfiled : Contribution → Prop
  | .reflection hint =>
      hint.access = .invokeMethod ∧ hint.member = some Member.constructorName
  | .resource .. | .proxy .. | .serialization .. => False

instance : DecidablePred IsMisfiled
  | .reflection _ => inferInstanceAs (Decidable (_ ∧ _))
  | .resource .. => inferInstanceAs (Decidable False)
  | .proxy .. => inferInstanceAs (Decidable False)
  | .serialization .. => inferInstanceAs (Decidable False)

/-- What a registration takes over from a contribution. -/
structure RegisteredAs (contribution : Contribution) (registration : Registration) : Prop where
  subject : registration.subject = contribution.subject
  hint? : registration.hint? = contribution.hint?
  condition : registration.condition = contribution.reachableIf
  declared : ¬ contribution.IsMisfiled → registration.kind = contribution.access
  misfiled : contribution.IsMisfiled →
    contribution.access = .invokeMethod ∧ registration.kind = .construct ∧
      ∃ hint, contribution.hint? = some hint

/-- The kind of a member is the access that was declared for it, unless it is a method
called as constructors are. -/
theorem kind_of_resolvedMember {hint : ReflectionHint} {member : Member}
    (resolved : hint.resolvedMember = some member) :
    member.kind =
      if hint.access = .invokeMethod ∧ hint.member = some Member.constructorName then
        .construct
      else
        hint.access := by
  obtain ⟨type, access, name?, parameterTypes, mode, reachableIf⟩ := hint
  cases access with
  | construct =>
      cases resolved
      rfl
  | invokeMethod =>
      obtain ⟨name, rfl, rfl⟩ := Option.map_eq_some_iff.1 resolved
      by_cases constructs : name = Member.constructorName
      · rw [if_pos ⟨rfl, congrArg some constructs⟩]
        exact if_pos constructs
      · rw [if_neg fun both => constructs (Option.some.inj both.2)]
        exact if_neg constructs
  | readField =>
      obtain ⟨name, rfl, rfl⟩ := Option.map_eq_some_iff.1 resolved
      rfl
  | loadResource =>
      cases resolved
  | proxy =>
      cases resolved
  | serialize =>
      cases resolved

theorem registeredAs {contribution : Contribution} {registration : Registration}
    (registered : contribution.registration = .ok registration) :
    contribution.RegisteredAs registration := by
  cases contribution with
  | reflection hint =>
      rw [Contribution.registration] at registered
      cases resolved : hint.resolvedMember with
      | none =>
          rw [resolved] at registered
          cases registered
      | some member =>
          rw [resolved] at registered
          obtain rfl := Except.ok.inj registered
          have kind := kind_of_resolvedMember resolved
          have given : (Contribution.reflection hint).hint? = some ⟨member, hint.mode⟩ := by
            rw [hint?, resolved]
            rfl
          exact ⟨rfl, given.symm, rfl, fun declared => kind.trans (if_neg declared),
            fun misfiled => ⟨misfiled.1, kind.trans (if_pos misfiled), _, given⟩⟩
  | resource pattern reachableIf =>
      rw [Contribution.registration] at registered
      split at registered
      · cases registered
      · obtain rfl := Except.ok.inj registered
        exact ⟨rfl, rfl, rfl, fun _ => rfl, False.elim⟩
  | proxy interfaces reachableIf =>
      rw [Contribution.registration] at registered
      split at registered
      · cases registered
      · obtain rfl := Except.ok.inj registered
        exact ⟨rfl, rfl, rfl, fun _ => rfl, False.elim⟩
  | serialization type reachableIf =>
      obtain rfl := Except.ok.inj registered
      exact ⟨rfl, rfl, rfl, fun _ => rfl, False.elim⟩

end Contribution

namespace Graph

variable (graph : Graph) (context : Context)

/-- A contribution of an accepted graph is in effect under the kind of access that it
declares, unless it is a method called as constructors are: that one is in effect under
the constructors instead, whatever hints the context holds. -/
theorem contributions_take_effect_unless_misfiled {generated : Generated} {after : Context}
    (accepted : graph.generate context = (.ok generated, after)) :
    ∀ contribution ∈ graph.contributions,
      (¬ contribution.IsMisfiled →
        after.hints.InEffect contribution.subject contribution.access contribution.hint?
          contribution.reachableIf) ∧
      (contribution.IsMisfiled →
        after.hints.InEffect contribution.subject .construct contribution.hint?
          contribution.reachableIf ∧
        (context.hints.Reachable →
          ¬ after.hints.InEffect contribution.subject contribution.access
            contribution.hint? contribution.reachableIf)) := by
  obtain ⟨-, -, contributed, sameContributions, rfl⟩ :=
    graph.of_generate_eq_ok context accepted
  intro contribution member
  have listed : contribution.registration ∈ contributed.map .ok := by
    rw [← sameContributions]
    exact List.mem_map_of_mem member
  obtain ⟨registration, made, registered⟩ := List.mem_map.1 listed
  obtain ⟨subject, hint, condition, declared, misfiled⟩ :=
    Contribution.registeredAs registered.symm
  have announced : registration ∈ graph.registrationsIn context contributed :=
    List.mem_append_left _ (List.mem_append_right _ made)
  have inEffect := HintRegistry.registerAll_inEffect announced context.hints
  rw [subject, hint, condition] at inEffect
  constructor
  · intro unmistaken
    rwa [declared unmistaken] at inEffect
  · intro mistaken
    obtain ⟨isMethod, isConstructor, own, given⟩ := misfiled mistaken
    rw [isConstructor] at inEffect
    refine ⟨inEffect, fun reachable declaredToo => ?_⟩
    have after := reachable.registerAll (graph.registrationsIn context contributed)
    rw [given] at inEffect declaredToo
    -- A member has one kind, so the hint is not in effect under two of them.
    have sameKind := (declaredToo.kind_eq after).symm.trans (inEffect.kind_eq after)
    rw [isMethod] at sameKind
    cases sameKind

def cacheType : TypeName :=
  ⟨[{ text := "com" }, { text := "acme" }], { text := "Cache" }⟩

def hintingGraph : Graph where
  application := ⟨[{ text := "com" }, { text := "acme" }], { text := "App" }⟩
  steps := []
  contributions :=
    [.reflection ⟨cacheType, .invokeMethod, some "size", [], .invoke, none⟩,
      .reflection ⟨cacheType, .readField, some "label", [], .introspect, some cacheType⟩,
      .resource "cache.txt" none, .proxy [cacheType] (some cacheType),
      .serialization cacheType none]

theorem hintingGraph_wellFormed : hintingGraph.WellFormed where
  steps := hintingGraph.hasWellFormedSteps_iff.2 trivial
  contributions := by decide +kernel

/-- The hints take effect in a context that holds a hint about one of the members, on
another condition. -/
theorem hintingGraph_contributions_take_effect :
    let known : Context := ⟨.empty, HintRegistry.empty.register
      (.reflection cacheType (.ofField "label") .introspect (some hintingGraph.application))⟩
    ∃ generated after, hintingGraph.generate known = (.ok generated, after) ∧
      ∀ contribution ∈ hintingGraph.contributions,
        after.hints.InEffect contribution.subject contribution.access contribution.hint?
          contribution.reachableIf := by
  intro known
  obtain ⟨contributed, -, accepted⟩ :=
    hintingGraph.generate_of_wellFormed known hintingGraph_wellFormed
  have filed : ∀ contribution ∈ hintingGraph.contributions, ¬ contribution.IsMisfiled := by
    decide
  refine ⟨_, _, accepted, fun contribution member => ?_⟩
  exact (contributions_take_effect_unless_misfiled hintingGraph known accepted contribution
    member).1 (filed contribution member)

/-- A graph that contributes a hint about a method called as constructors are. -/
def misfilingGraph : Graph where
  application := ⟨[{ text := "com" }, { text := "acme" }], { text := "App" }⟩
  steps := []
  contributions :=
    [.reflection ⟨cacheType, .invokeMethod, some Member.constructorName, [], .invoke, none⟩]

theorem misfilingGraph_wellFormed : misfilingGraph.WellFormed where
  steps := misfilingGraph.hasWellFormedSteps_iff.2 trivial
  contributions := by decide +kernel

/-- There is no hint about invoking methods of the type, though one is contributed. -/
theorem misfilingGraph_contribution_takes_no_effect :
    ∃ generated after, misfilingGraph.generate .empty = (.ok generated, after) ∧
      after.hints.get? (.type cacheType) .invokeMethod = none ∧
      ∃ contribution ∈ misfilingGraph.contributions,
        ¬ after.hints.InEffect contribution.subject contribution.access contribution.hint?
          contribution.reachableIf := by
  obtain ⟨contributed, -, accepted⟩ :=
    misfilingGraph.generate_of_wellFormed .empty misfilingGraph_wellFormed
  have absent : (misfilingGraph.generate .empty).2.hints.get? (.type cacheType)
      .invokeMethod = none := by
    decide +kernel
  rw [accepted] at absent
  refine ⟨_, _, accepted, absent, _, List.mem_singleton_self _, ?_⟩
  rintro ⟨entry, found, -⟩
  cases absent.symm.trans found

end Graph

end AheadOfTime
