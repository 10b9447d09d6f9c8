import AheadOfTime.Proofs.Generation.Outcome

/-!
# Well-formed graphs are accepted, others refused for their first fault

A graph is generated exactly when it is well-formed.  Otherwise the error names the
first step that is not well-formed, or when there is none the first contribution that
is not, with its first fault.  Issuing names never fails.
-/

namespace AheadOfTime.Graph

/-- A graph is generated exactly when it is well-formed, fails exactly with its first
fault, and never for want of a name. -/
theorem generate_ok_iff_wellFormed_and_error_iff_firstFault
    (graph : Graph) (context : Context) :
    ((∃ generated, (graph.generate context).1 = .ok generated) ↔ graph.WellFormed) ∧
      (∀ error, (graph.generate context).1 = .error error ↔ graph.FirstFault error) ∧
      ∀ nameError, (graph.generate context).1 ≠ .error (.name nameError) := by
  rcases graph.wellFormed_or_firstFault with wellFormed | ⟨fault, first⟩
  · obtain ⟨contributed, -, outcome⟩ := graph.generate_of_wellFormed context wellFormed
    have notRefused : ∀ error, ¬ graph.FirstFault error := by
      intro error first
      have refused := graph.generate_of_firstFault context first
      rw [outcome] at refused
      cases refused
    rw [outcome]
    refine ⟨⟨fun _ => wellFormed, fun _ => ⟨_, rfl⟩⟩, fun error => ⟨?_, ?_⟩, ?_⟩
    · intro failed
      cases failed
    · exact fun first => absurd first (notRefused error)
    · intro nameError failed
      cases failed
  · have outcome := graph.generate_of_firstFault context first
    rw [outcome]
    refine ⟨⟨?_, ?_⟩, fun error => ⟨?_, ?_⟩, ?_⟩
    · rintro ⟨generated, accepted⟩
      cases accepted
    · intro wellFormed
      obtain ⟨contributed, -, accepted⟩ := graph.generate_of_wellFormed context wellFormed
      rw [outcome] at accepted
      cases accepted
    · intro failed
      cases failed
      exact first
    · intro other
      have refused := graph.generate_of_firstFault context other
      rw [outcome] at refused
      exact (Prod.mk.inj refused).1
    · intro nameError failed
      cases failed
      cases first

end AheadOfTime.Graph
