import AheadOfTime.Proofs.Hint.Meaning

/-!
# Merging is registering

Whatever a registry was made by, there are registrations that make it directly.
Merging a registry registers them one after the other, so merging is associative, has
the empty registry as its unit, and is idempotent; the order of two registries shows in
the order of entries and members only.
-/

namespace AheadOfTime.HintRegistry

/-- The registries that registrations and merges lead to. -/
inductive Reachable : HintRegistry → Prop where
  | empty : Reachable .empty
  | register {registry : HintRegistry} (earlier : Reachable registry)
      (registration : Registration) : Reachable (registry.register registration)
  | merge {first second : HintRegistry} (left : Reachable first) (right : Reachable second) :
      Reachable (first.merge second)

/-- A registry that can be reached is what some registrations in turn make of the empty
one. -/
theorem Reachable.exists_registerAll {registry : HintRegistry} (reachable : registry.Reachable) :
    ∃ registrations, registry = HintRegistry.empty.registerAll registrations := by
  induction reachable with
  | empty =>
      exact ⟨[], rfl⟩
  | register earlier registration inductionHypothesis =>
      obtain ⟨registrations, rfl⟩ := inductionHypothesis
      refine ⟨registrations ++ [registration], ?_⟩
      rw [registerAll_append]
      rfl
  | merge left right leftHypothesis rightHypothesis =>
      obtain ⟨first, rfl⟩ := leftHypothesis
      obtain ⟨second, rfl⟩ := rightHypothesis
      refine ⟨first ++ second, ?_⟩
      rw [merge_registerAll_empty, registerAll_append]

theorem Reachable.registerAll {registry : HintRegistry} (reachable : registry.Reachable)
    (registrations : List Registration) : (registry.registerAll registrations).Reachable := by
  induction registrations generalizing registry with
  | nil =>
      exact reachable
  | cons registration registrations inductionHypothesis =>
      exact inductionHypothesis (reachable.register registration)

theorem merge_registerAll (first second : List Registration) :
    (empty.registerAll first).merge (empty.registerAll second) =
      empty.registerAll (first ++ second) := by
  rw [merge_registerAll_empty, registerAll_append]

/-- Merging what was registered apart is registering it here, one by one; so merging is
associative, the empty registry is its unit, merging a registry into itself changes
nothing, and which of two registries is merged into the other shows in the order of
entries and members only. -/
theorem merging_is_registering {first second third : HintRegistry}
    (firstReachable : first.Reachable) (secondReachable : second.Reachable)
    (thirdReachable : third.Reachable) :
    (∀ registrations,
        first.merge (empty.registerAll registrations) = first.registerAll registrations) ∧
      (first.merge second).merge third = first.merge (second.merge third) ∧
      empty.merge first = first ∧
      first.merge empty = first ∧
      first.merge first = first ∧
      (first.merge second).SameUpToOrder (second.merge first) := by
  obtain ⟨firstMade, rfl⟩ := firstReachable.exists_registerAll
  obtain ⟨secondMade, rfl⟩ := secondReachable.exists_registerAll
  obtain ⟨thirdMade, rfl⟩ := thirdReachable.exists_registerAll
  refine ⟨merge_registerAll_empty _, ?_, ?_, rfl, ?_, ?_⟩
  · rw [merge_registerAll, merge_registerAll, merge_registerAll, merge_registerAll,
      List.append_assoc]
  · exact merge_registerAll_empty empty firstMade
  · rw [merge_registerAll_empty]
    exact registerAll_of_subset fun _ member => member
  · rw [merge_registerAll, merge_registerAll]
    apply sameUpToOrder_of_same_registrations
    intro registration
    rw [List.mem_append, List.mem_append, or_comm]

theorem merging_overlapping_registries :
    let first := empty.registerAll (cacheRegistrations.take 2)
    let second := empty.registerAll (cacheRegistrations.drop 1)
    (first.merge second).merge first = first.merge (second.merge first) ∧
      (first.merge second).SameUpToOrder (second.merge first) ∧
      first.merge second ≠ second.merge first := by
  intro first second
  have firstReachable : first.Reachable := .registerAll .empty _
  have secondReachable : second.Reachable := .registerAll .empty _
  obtain ⟨-, assoc, -, -, -, swapped⟩ :=
    merging_is_registering firstReachable secondReachable firstReachable
  exact ⟨assoc, swapped, by decide⟩

end AheadOfTime.HintRegistry
