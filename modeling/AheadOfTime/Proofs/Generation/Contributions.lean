import Mathlib.Data.List.TakeWhile
import AheadOfTime.Proofs.Graph.Scope

/-!
# Registering contributed hints

Contributed hints are registered up to the first that has a fault.
-/

namespace AheadOfTime

namespace Text

/-- A text is blank when nothing is left of it without the blanks around it. -/
theorem trim_eq_nil_iff (text : List Char) : trim text = [] ↔ isBlank text = true := by
  rw [trim, trimEnd, List.reverse_eq_nil_iff, List.dropWhile_eq_nil_iff, trimStart, isBlank,
    List.all_eq_true]
  constructor
  · intro blank
    cases left : text.dropWhile Unicode.isBlank with
    | nil =>
        exact List.dropWhile_eq_nil_iff.1 left
    | cons first rest =>
        have nonempty : text.dropWhile Unicode.isBlank ≠ [] := by simp [left]
        have visible := List.head_dropWhile_not Unicode.isBlank nonempty
        have blankFirst := blank first (by simp [left])
        simp only [left, List.head_cons, blankFirst] at visible
        cases visible
  · intro blank c member
    rw [List.dropWhile_eq_nil_iff.2 blank] at member
    cases member

end Text

namespace Contribution

theorem registration_of_wellFormed {contribution : Contribution}
    (wellFormed : contribution.WellFormed) :
    ∃ registered, contribution.registration = .ok registered := by
  cases contribution with
  | reflection hint =>
      obtain ⟨member, found⟩ := Option.isSome_iff_exists.1 wellFormed
      exact ⟨_, by rw [registration, found]⟩
  | resource pattern reachableIf =>
      have visible : ¬ Text.isBlank pattern.toList = true := fun blank =>
        wellFormed ((Text.trim_eq_nil_iff _).2 blank)
      exact ⟨_, by rw [registration, if_neg visible]⟩
  | proxy interfaces reachableIf =>
      have filled : ¬ interfaces.isEmpty = true := fun empty =>
        wellFormed (List.isEmpty_iff.1 empty)
      exact ⟨_, by rw [registration, if_neg filled]⟩
  | serialization type reachableIf =>
      exact ⟨_, rfl⟩

theorem registration_of_fault {contribution : Contribution} {fault : HintFault}
    (head : contribution.faults.head? = some fault) :
    contribution.registration = .error fault := by
  cases contribution with
  | reflection hint =>
      rw [faults] at head
      cases found : hint.resolvedMember with
      | none =>
          rw [found] at head
          rw [registration, found]
          exact congrArg Except.error (Option.some.inj head)
      | some member =>
          rw [found] at head
          cases head
  | resource pattern reachableIf =>
      rw [faults] at head
      by_cases blank : Text.trim pattern.toList = []
      · rw [if_pos blank] at head
        rw [registration, if_pos ((Text.trim_eq_nil_iff _).1 blank)]
        exact congrArg Except.error (Option.some.inj head)
      · rw [if_neg blank] at head
        cases head
  | proxy interfaces reachableIf =>
      cases interfaces with
      | nil =>
          exact congrArg Except.error (Option.some.inj head)
      | cons first others =>
          cases head
  | serialization type reachableIf =>
      cases head

/-- Contributions are all well-formed, or there is a first one that has a fault. -/
theorem wellFormed_or_fault (contributions : List Contribution) :
    (∀ contribution ∈ contributions, contribution.WellFormed) ∨
      ∃ earlier contribution later fault, contributions = earlier ++ contribution :: later ∧
        (∀ before ∈ earlier, before.WellFormed) ∧ contribution.faults.head? = some fault := by
  induction contributions with
  | nil =>
      exact Or.inl (List.forall_mem_nil _)
  | cons contribution rest inductionHypothesis =>
      cases faults : contribution.faults with
      | cons fault others =>
          refine Or.inr ⟨[], contribution, rest, fault, rfl, List.forall_mem_nil _, ?_⟩
          rw [faults]
          rfl
      | nil =>
          have wellFormed := contribution.wellFormed_iff_faults.2 faults
          rcases inductionHypothesis with restFine | failed
          · exact Or.inl (List.forall_mem_cons.2 ⟨wellFormed, restFine⟩)
          · obtain ⟨earlier, failing, later, fault, parts, earlierFine, head⟩ := failed
            refine Or.inr ⟨contribution :: earlier, failing, later, fault, ?_, ?_, head⟩
            · rw [parts, List.cons_append]
            · exact List.forall_mem_cons.2 ⟨wellFormed, earlierFine⟩

/-- Well-formed contributions are all registered, in order. -/
theorem registrations_of_wellFormed {contributions : List Contribution}
    (wellFormed : ∀ contribution ∈ contributions, contribution.WellFormed) (index : Nat) :
    ∃ contributed, registrations index contributions = .ok contributed ∧
      contributions.map registration = contributed.map .ok := by
  induction contributions generalizing index with
  | nil =>
      exact ⟨[], rfl, rfl⟩
  | cons contribution rest inductionHypothesis =>
      obtain ⟨here, restFine⟩ := List.forall_mem_cons.1 wellFormed
      obtain ⟨first, registered⟩ := registration_of_wellFormed here
      obtain ⟨others, restRegistered, sameOthers⟩ := inductionHypothesis restFine (index + 1)
      refine ⟨first :: others, ?_, ?_⟩
      · rw [registrations, registered, restRegistered]
      · rw [List.map_cons, List.map_cons, registered, sameOthers]

/-- The first contribution with a fault is the one that is refused. -/
theorem registrations_of_fault {earlier : List Contribution}
    (wellFormed : ∀ contribution ∈ earlier, contribution.WellFormed)
    {contribution : Contribution} {fault : HintFault}
    (head : contribution.faults.head? = some fault) (later : List Contribution)
    (index : Nat) :
    registrations index (earlier ++ contribution :: later) =
      .error (.hint (index + earlier.length) fault) := by
  induction earlier generalizing index with
  | nil =>
      rw [List.nil_append, registrations, registration_of_fault head]
      rfl
  | cons first earlier inductionHypothesis =>
      obtain ⟨here, earlierFine⟩ := List.forall_mem_cons.1 wellFormed
      obtain ⟨registered, found⟩ := registration_of_wellFormed here
      rw [List.cons_append, registrations, found, inductionHypothesis earlierFine (index + 1),
        List.length_cons, Nat.add_comm earlier.length 1, Nat.add_assoc]

end Contribution

end AheadOfTime
