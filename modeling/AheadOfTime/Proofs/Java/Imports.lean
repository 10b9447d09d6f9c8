import AheadOfTime.Java.Imports

/-!
# Claims of simple names

After a claim of a simple name another claim by the same type changes nothing.
-/

namespace AheadOfTime.Java.Imports

theorem hides_self (imports : Imports) (type : TypeName) : imports.hides type type = false := by
  simp [hides]

/-- A type that already owns its simple name, or cannot have it, gains nothing. -/
theorem claim_of_ownerOf? {imports : Imports} {type : TypeName}
    (owned : imports.ownerOf? type.simple = some type) : imports.claim type = imports := by
  rw [claim, owned]
  split
  · rfl
  · simp only [hides_self, Bool.false_eq_true, if_false]

/-- The first owner of a simple name may hand it on to a type of that simple name. -/
theorem find?_handOver {owners : List TypeName} {type owner : TypeName}
    (found : owners.find? (fun known => known.simple == type.simple) = some owner) :
    (owners.map fun known => if known = owner then type else known).find?
      (fun known => known.simple == type.simple) = some type := by
  induction owners with
  | nil =>
      cases found
  | cons known owners inductionHypothesis =>
      rw [List.find?_cons] at found
      by_cases named : (known.simple == type.simple) = true
      · rw [named] at found
        obtain rfl := Option.some.inj found
        simp
      · simp only [named] at found
        have ownerNamed : (owner.simple == type.simple) = true := by
          simpa using List.find?_some found
        have other : known ≠ owner := by
          rintro rfl
          exact named ownerNamed
        rw [List.map_cons, if_neg other, List.find?_cons]
        simp only [named]
        exact inductionHypothesis found

theorem claim_claim (imports : Imports) (type : TypeName) :
    (imports.claim type).claim type = imports.claim type := by
  by_cases primitive : type.isPrimitive = true
  · rw [claim, if_pos primitive]
  · cases found : imports.ownerOf? type.simple with
    | none =>
        refine claim_of_ownerOf? ?_
        rw [claim, if_neg primitive, found]
        rw [ownerOf?] at found
        rw [ownerOf?, List.find?_append, found]
        simp
    | some owner =>
        by_cases hidden : imports.hides type owner = true
        · refine claim_of_ownerOf? ?_
          rw [claim, if_neg primitive, found]
          simp only [hidden, if_true, ownerOf?]
          exact find?_handOver found
        · have unchanged : imports.claim type = imports := by
            rw [claim, if_neg primitive, found]
            simp only [hidden]
            rfl
          rw [unchanged, unchanged]

end AheadOfTime.Java.Imports
