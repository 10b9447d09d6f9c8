import Mathlib.Data.List.Induction
import AheadOfTime.Proofs.Path.Components

/-!
# Paths below a base

Below a directory whose path ends in a name, names are added one by one.  The path above such
a path is the one without the last name, so what is above the base need not be known.
-/

namespace AheadOfTime.Path

/-- Whether names can be added to a path one by one: it has text, does not begin with a dot,
and ends in a name itself. -/
structure IsBase (path : Path) : Prop where
  listable : path.IsListable
  ends : path.EndsInName

def below (base : Path) (names : List String) : Path :=
  names.foldl (fun path name => path.join ⟨name⟩) base

theorem below_concat (base : Path) (front : List String) (last : String) :
    base.below (front ++ [last]) = (base.below front).join ⟨last⟩ :=
  List.foldl_concat _ _ _ _

theorem below_append (base : Path) (first second : List String) :
    base.below (first ++ second) = (base.below first).below second :=
  List.foldl_append

/-- Names can be seen one after the other, or all at once. -/
theorem below_join (base first : Path) (names : List String) :
    (base.join first).below names = base.join (first.below names) := by
  induction names generalizing first with
  | nil =>
      rfl
  | cons name names inductionHypothesis =>
      rw [below, List.foldl_cons, join_assoc]
      exact inductionHypothesis (first.join ⟨name⟩)

theorem join_ofNames (base : Path) {names : List String} (nonempty : names ≠ [])
    (each : ∀ name ∈ names, IsFileName name) : base.join (ofNames names) = base.below names := by
  obtain ⟨first, rest, rfl⟩ := List.exists_cons_of_ne_nil nonempty
  have relative := isAbsolute_of_isFileName (each first List.mem_cons_self)
  have whole : ofNames (first :: rest) = (⟨first⟩ : Path).below rest := by
    rw [ofNames, List.foldl_cons, join_empty relative]
    rfl
  rw [whole, ← below_join]
  rfl

namespace IsBase

variable {base : Path} (isBase : base.IsBase)

include isBase

theorem join {name : String} (isFileName : IsFileName name) : (base.join ⟨name⟩).IsBase := by
  have parts := parts_join_name isBase.ends isFileName
  refine ⟨⟨?_, ?_⟩, ⟨base.parts, name, parts, isFileName.1⟩⟩
  · rw [text_join base (isAbsolute_of_isFileName isFileName)]
    intro empty
    exact isBase.listable.1 (String.append_eq_empty_iff.1 (String.append_eq_empty_iff.1 empty).1).1
  · obtain ⟨first, rest, whole⟩ := List.exists_cons_of_ne_nil base.parts_ne_nil
    have dotless := isBase.listable.2
    rw [whole] at dotless
    rw [parts, whole]
    exact dotless

variable {names : List String} (each : ∀ name ∈ names, IsFileName name)

include each

theorem below : (base.below names).IsBase := by
  induction names using List.reverseRecOn with
  | nil =>
      exact isBase
  | append_singleton front last inductionHypothesis =>
      obtain ⟨others, isLast⟩ := List.forall_mem_append.1 each
      rw [below_concat]
      exact (inductionHypothesis others).join (List.forall_mem_singleton.1 isLast)

theorem parts_below : (base.below names).parts = base.parts ++ names := by
  induction names using List.reverseRecOn with
  | nil =>
      exact (List.append_nil _).symm
  | append_singleton front last inductionHypothesis =>
      obtain ⟨others, isLast⟩ := List.forall_mem_append.1 each
      rw [below_concat, parts_join_name (isBase.below others).ends
        (List.forall_mem_singleton.1 isLast), inductionHypothesis others, List.append_assoc]

theorem place_below : (base.below names).place = base.place ++ names := by
  rw [place, isBase.parts_below each, placeFrom_append]
  exact placeFrom_of_isName _ fun name member => (each name member).1

end IsBase

/-- Whether a path goes through names from a base, at least one. -/
def IsBelow (base path : Path) : Prop :=
  ∃ names, names ≠ [] ∧ (∀ name ∈ names, IsFileName name) ∧ path = base.below names

theorem isBelow_join_ofNames (base : Path) {names : List String} (nonempty : names ≠ [])
    (each : ∀ name ∈ names, IsFileName name) : base.IsBelow (base.join (ofNames names)) :=
  ⟨names, nonempty, each, join_ofNames base nonempty each⟩

theorem IsBelow.of_below {base path : Path} {front : List String}
    (each : ∀ name ∈ front, IsFileName name) (below : (base.below front).IsBelow path) :
    base.IsBelow path := by
  obtain ⟨names, nonempty, eachToo, same⟩ := below
  refine ⟨front ++ names, List.append_ne_nil_of_right_ne_nil _ nonempty,
    List.forall_mem_append.2 ⟨each, eachToo⟩, ?_⟩
  rw [same, below_append]

theorem IsBelow.exists_place {base path : Path} (below : base.IsBelow path) :
    ∃ names, path.place = base.place ++ names := by
  obtain ⟨names, nonempty, each, same⟩ := below
  refine ⟨names, ?_⟩
  rw [same, ← join_ofNames base nonempty each, place_join_names base nonempty each]

/-- What is on the way of a path below a base is on the way of the base, or on the way from
there. -/
theorem IsBelow.visits {base path : Path} (below : base.IsBelow path) {place : Place}
    (visits : path.Visits place) : base.Visits place ∨ place <+: path.place := by
  obtain ⟨names, nonempty, each, same⟩ := below
  rw [same, ← join_ofNames base nonempty each] at visits ⊢
  rcases Visits.of_join (isAbsolute_ofNames nonempty each) visits with
    above | ⟨parts, front, isPlace⟩
  · exact .inl above
  · right
    rw [parts_ofNames nonempty each] at front
    rw [place_join_names base nonempty each, isPlace,
      placeFrom_of_isName _ fun part member => (each part (front.subset member)).1]
    exact List.prefix_append_right_inj _ |>.2 front

/-- Whether neither of two paths leads to a place at or below that of the other. -/
structure Apart (first second : Path) : Prop where
  notAbove : ¬ first.place <+: second.place
  notBelow : ¬ second.place <+: first.place

theorem Apart.symm {first second : Path} (apart : first.Apart second) : second.Apart first :=
  ⟨apart.notBelow, apart.notAbove⟩

theorem Apart.outside {first second path : Path} (apart : first.Apart second)
    (below : second.IsBelow path) : ¬ first.place <+: path.place := by
  obtain ⟨names, same⟩ := below.exists_place
  rw [same]
  intro isPrefix
  rcases List.prefix_or_prefix_of_prefix isPrefix (List.prefix_append _ _) with above | below
  · exact apart.notAbove above
  · exact apart.notBelow below

theorem IsBase.apart_below {base : Path} (isBase : base.IsBase) {first second : List String}
    (each : ∀ name ∈ first, IsFileName name) (eachToo : ∀ name ∈ second, IsFileName name)
    (notAbove : ¬ first <+: second) (notBelow : ¬ second <+: first) :
    (base.below first).Apart (base.below second) := by
  constructor
  · rw [isBase.place_below each, isBase.place_below eachToo, List.prefix_append_right_inj]
    exact notAbove
  · rw [isBase.place_below each, isBase.place_below eachToo, List.prefix_append_right_inj]
    exact notBelow

end AheadOfTime.Path
