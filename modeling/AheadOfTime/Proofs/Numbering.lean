/-!
# Numbered names

Names that are made different by a number: the texts of two numbers differ, and of
one name more than are taken one is free.
-/

namespace AheadOfTime.Numbering

theorem isDigit_of_mem_toString {number : Nat} {c : Char}
    (member : c ∈ (toString number).toList) : c.isDigit = true := by
  rw [Nat.toString_eq_repr, Nat.toList_repr] at member
  exact Nat.isDigit_of_mem_toDigits (by decide) (by decide) member

theorem toString_injective {first second : Nat} (same : toString first = toString second) :
    first = second := by
  have sameDigits : Nat.toDigits 10 first = Nat.toDigits 10 second := by
    rw [← Nat.toList_repr, ← Nat.toList_repr, ← Nat.toString_eq_repr,
      ← Nat.toString_eq_repr, same]
  rw [← Nat.ofDigitChars_ten_toDigits (n := first), sameDigits,
    Nat.ofDigitChars_ten_toDigits]

theorem toString_ne_empty (number : Nat) : toString number ≠ "" := by
  intro empty
  have noDigits : Nat.toDigits 10 number = [] := by
    rw [← Nat.toList_repr, ← Nat.toString_eq_repr, empty]
    rfl
  exact Nat.toDigits_ne_nil noDigits

/-- Of different candidates, one more than there are taken names, one is free. -/
theorem exists_free {α : Type} (candidate : Nat → α)
    (different : ∀ first second, candidate first = candidate second → first = second)
    (taken : List α) :
    ∃ offset, offset ≤ taken.length ∧ candidate offset ∉ taken := by
  apply Classical.byContradiction
  intro noneFree
  have allTaken : (List.range (taken.length + 1)).map candidate ⊆ taken := by
    intro name member
    obtain ⟨offset, inRange, rfl⟩ := List.mem_map.1 member
    have small : offset ≤ taken.length := by
      have bound := List.mem_range.1 inRange
      omega
    exact Classical.byContradiction fun free => noneFree ⟨offset, small, free⟩
  have distinct : ((List.range (taken.length + 1)).map candidate).Nodup :=
    List.pairwise_map.2 <| List.nodup_range.imp fun unequal same =>
      unequal (different _ _ same)
  have bound := distinct.length_le_of_subset allTaken
  rw [List.length_map, List.length_range] at bound
  omega

end AheadOfTime.Numbering
