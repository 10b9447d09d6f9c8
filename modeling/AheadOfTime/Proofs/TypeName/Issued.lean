import AheadOfTime.Proofs.Numbering
import AheadOfTime.Proofs.TypeName
import AheadOfTime.TypeName.Issued

/-!
# Issued names are fresh

A request for a feature whose text can stand inside an identifier always succeeds:
the name is beside the base type, carries the stem of the feature, and was not
issued before.
-/

namespace AheadOfTime.IssuedNames

/-- A text that can follow the start of an identifier. -/
def IsFeature (feature : String) : Prop :=
  ∀ c ∈ feature.toList, isIdentifierPart c = true

theorem toList_stem (base : TypeName) (feature : String) :
    (stem base feature).toList = base.simple.chars ++ ['_', '_'] ++ feature.toList := by
  rw [stem, String.toList_append, String.toList_append]
  rfl

theorem isIdentifierShape_stem (base : TypeName) {feature : String}
    (isFeature : IsFeature feature) :
    isIdentifierShape (stem base feature).toList = true := by
  rw [toList_stem, List.append_assoc]
  refine isIdentifierShape_append base.simple.shape fun c member => ?_
  rcases List.mem_append.1 member with underscore | later
  · simp only [List.mem_cons, List.not_mem_nil, or_false, or_self] at underscore
    rw [underscore]
    decide
  · exact isFeature c later

theorem isIdentifier_numbered (base : TypeName) {feature : String}
    (isFeature : IsFeature feature) (number : Nat) :
    isIdentifier (numbered base feature number) = true := by
  have stemShape := isIdentifierShape_stem base isFeature
  have marked : '_' ∈ (stem base feature).toList := by
    rw [toList_stem]
    simp
  rw [← String.ofList_toList (s := numbered base feature number)]
  by_cases first : number = 1
  · rw [numbered, if_pos first]
    exact isIdentifier_of_mem stemShape marked (by decide)
  · rw [numbered, if_neg first, String.toList_append, String.toList_append,
      List.append_assoc]
    refine isIdentifier_of_mem (isIdentifierShape_append stemShape fun c member => ?_)
      (List.mem_append_left _ marked) (by decide)
    rcases List.mem_append.1 member with dollar | digit
    · rw [List.mem_singleton.1 dollar]
      decide
    · exact isIdentifierPart_of_isDigit (Numbering.isDigit_of_mem_toString digit)

def candidateName (base : TypeName) {feature : String} (isFeature : IsFeature feature)
    (number : Nat) : TypeName :=
  ⟨base.package, numbered base feature number, isIdentifier_numbered base isFeature number⟩

theorem candidate_eq_ok (base : TypeName) {feature : String}
    (isFeature : IsFeature feature) (number : Nat) :
    candidate base feature number = .ok (candidateName base isFeature number) :=
  base.peer_text ⟨_, isIdentifier_numbered base isFeature number⟩

theorem numbered_injective (base : TypeName) (feature : String) {first second : Nat}
    (same : numbered base feature first = numbered base feature second) :
    first = second := by
  have longer : ∀ number : Nat,
      stem base feature ≠ stem base feature ++ "$" ++ toString number := by
    intro number equal
    have lengths := congrArg String.length equal
    rw [String.length_append, String.length_append] at lengths
    have mark : ("$" : String).length = 1 := rfl
    omega
  unfold numbered at same
  by_cases isFirst : first = 1
  · by_cases isSecond : second = 1
    · rw [isFirst, isSecond]
    · rw [if_pos isFirst, if_neg isSecond] at same
      exact absurd same (longer second)
  · by_cases isSecond : second = 1
    · rw [if_neg isFirst, if_pos isSecond] at same
      exact absurd same.symm (longer first)
    · rw [if_neg isFirst, if_neg isSecond] at same
      exact Numbering.toString_injective (String.append_right_inj _ |>.1 same)

theorem candidateName_injective (base : TypeName) {feature : String}
    (isFeature : IsFeature feature) {first second : Nat}
    (same : candidateName base isFeature first = candidateName base isFeature second) :
    first = second :=
  numbered_injective base feature (congrArg (fun name => name.simple.text) same)

theorem search_eq_free {taken : List TypeName}
    {candidates : Nat → Except TypeNameError TypeName} {name : Nat → TypeName}
    (named : ∀ number, candidates number = .ok (name number)) {tries reached : Nat}
    (free : ∃ offset, offset ≤ tries ∧ name (reached + 1 + offset) ∉ taken) :
    ∃ number, reached < number ∧ name number ∉ taken ∧
      search taken candidates tries reached = (.ok (name number), number) := by
  induction tries generalizing reached with
  | zero =>
      obtain ⟨offset, bound, free⟩ := free
      have first : offset = 0 := Nat.le_zero.1 bound
      rw [first, Nat.add_zero] at free
      exact ⟨reached + 1, Nat.lt_succ_self reached, free, by rw [search, named]⟩
  | succ tries inductionHypothesis =>
      by_cases isTaken : taken.contains (name (reached + 1)) = true
      · have later : ∃ offset, offset ≤ tries ∧ name (reached + 1 + 1 + offset) ∉ taken := by
          obtain ⟨offset, bound, free⟩ := free
          cases offset with
          | zero =>
              exact absurd (List.contains_iff_mem.1 isTaken) free
          | succ offset =>
              refine ⟨offset, Nat.le_of_succ_le_succ bound, ?_⟩
              rwa [Nat.add_assoc (reached + 1), Nat.add_comm 1 offset]
        obtain ⟨number, above, free, found⟩ := inductionHypothesis later
        refine ⟨number, Nat.lt_of_succ_lt above, free, ?_⟩
        rw [search, named, ← found]
        exact if_pos isTaken
      · refine ⟨reached + 1, Nat.lt_succ_self reached, ?_, ?_⟩
        · exact fun member => isTaken (List.contains_iff_mem.2 member)
        · rw [search, named]
          exact if_neg isTaken

/-- What a name issued for a feature of a base type beside known names is like: it is
none of them, and is a numbered name of the feature in the package of the base type. -/
structure Fresh (known : List TypeName) (base : TypeName) (feature : String)
    (name : TypeName) : Prop where
  unissued : name ∉ known
  package : name.package = base.package
  simple : ∃ number, 0 < number ∧ name.simple.text = numbered base feature number

theorem exists_issue_eq (issued : IssuedNames) (base : TypeName) {feature : String}
    (isFeature : IsFeature feature) :
    ∃ name counters, Fresh issued.names base feature name ∧
      issued.issue base feature = (.ok name, ⟨issued.names ++ [name], counters⟩) := by
  let reached := issued.counter (counterKey base feature)
  have someFree := Numbering.exists_free
    (fun offset => candidateName base isFeature (reached + 1 + offset))
    (fun first second same => Nat.add_left_cancel (candidateName_injective base isFeature same))
    issued.names
  obtain ⟨number, above, free, found⟩ :=
    search_eq_free (candidate_eq_ok base isFeature) someFree
  refine ⟨candidateName base isFeature number,
    setCounter (counterKey base feature) number issued.counters, ⟨free, rfl, ?_⟩, ?_⟩
  · exact ⟨number, Nat.lt_of_le_of_lt (Nat.zero_le reached) above, rfl⟩
  · rw [issue, size, found]

/-- The name that the next request for a feature of `base` issues. -/
def next (issued : IssuedNames) (base : TypeName) (feature : String) : TypeName :=
  match (issued.issue base feature).1 with
  | .ok name => name
  | .error _ => base

/-- The issued names after the next request for a feature of `base`. -/
def afterNext (issued : IssuedNames) (base : TypeName) (feature : String) : IssuedNames :=
  (issued.issue base feature).2

variable (issued : IssuedNames) (base : TypeName) {feature : String}

theorem issue_eq_next (isFeature : IsFeature feature) :
    issued.issue base feature =
      (.ok (issued.next base feature), issued.afterNext base feature) := by
  obtain ⟨name, counters, -, issue⟩ := exists_issue_eq issued base isFeature
  rw [next, afterNext, issue]

theorem fresh_next (isFeature : IsFeature feature) :
    Fresh issued.names base feature (issued.next base feature) := by
  obtain ⟨name, counters, fresh, issue⟩ := exists_issue_eq issued base isFeature
  rw [next, issue]
  exact fresh

theorem names_afterNext (isFeature : IsFeature feature) :
    (issued.afterNext base feature).names =
      issued.names ++ [issued.next base feature] := by
  obtain ⟨name, counters, -, issue⟩ := exists_issue_eq issued base isFeature
  rw [next, afterNext, issue]

end AheadOfTime.IssuedNames
