import Mathlib.Data.List.Nodup
import AheadOfTime.Proofs.Java.Imports
import AheadOfTime.Proofs.Keyed.Collected

/-!
# What claims in turn lead to

After claims every simple name that was claimed has one owner, which is one of the types
that claimed it; a type of the file's own package never loses its simple name to a type
of `java.lang`.
-/

namespace AheadOfTime.Java.Imports

/-- Whether a type becomes the owner of its simple name when it claims it. -/
def wins (imports : Imports) (type : TypeName) : Bool :=
  !type.isPrimitive &&
    match imports.ownerOf? type.simple with
    | none => true
    | some owner => imports.hides type owner

theorem hides_eq_true_iff (imports : Imports) (type owner : TypeName) :
    imports.hides type owner = true ↔
      type.package = imports.unit.package ∧ owner.package = TypeName.langPackage ∧
        owner ≠ type := by
  simp [hides, and_assoc]

theorem unit_claim (imports : Imports) (type : TypeName) :
    (imports.claim type).unit = imports.unit := by
  unfold claim
  split
  · rfl
  · split
    · rfl
    · split <;> rfl

theorem unit_claimAll (imports : Imports) (types : List TypeName) :
    (imports.claimAll types).unit = imports.unit := by
  induction types generalizing imports with
  | nil =>
      rfl
  | cons type rest inductionHypothesis =>
      exact (inductionHypothesis (imports.claim type)).trans (imports.unit_claim type)

theorem hides_claim (imports : Imports) (claimant type owner : TypeName) :
    (imports.claim claimant).hides type owner = imports.hides type owner := by
  rw [hides, hides, unit_claim]

/-- A type does not lose its simple name to one that took it from a type of
`java.lang`. -/
theorem hides_eq_false_of_hides {imports : Imports} {type owner : TypeName}
    (hidden : imports.hides type owner = true) (sameSimple : owner.simple = type.simple)
    (other : TypeName) : imports.hides other type = false := by
  rw [Bool.eq_false_iff]
  intro hiddenAgain
  obtain ⟨-, ownerPackage, different⟩ := (hides_eq_true_iff _ _ _).1 hidden
  obtain ⟨-, typePackage, -⟩ := (hides_eq_true_iff _ _ _).1 hiddenAgain
  apply different
  rw [TypeName.mk.injEq]
  exact ⟨ownerPackage.trans typePackage.symm, sameSimple⟩

/-- A type takes over from an owner only what it hides. -/
theorem hides_of_wins {imports : Imports} {type owner : TypeName}
    (owned : imports.ownerOf? type.simple = some owner) (wins : imports.wins type = true) :
    imports.hides type owner = true := by
  rw [Imports.wins, owned, Bool.and_eq_true] at wins
  exact wins.2

theorem exists_owner_of_not_wins {imports : Imports} {type : TypeName}
    (notPrimitive : type.isPrimitive = false) (loses : imports.wins type = false) :
    ∃ owner, imports.ownerOf? type.simple = some owner ∧ imports.hides type owner = false := by
  rw [wins, notPrimitive] at loses
  cases owned : imports.ownerOf? type.simple with
  | none =>
      rw [owned] at loses
      cases loses
  | some owner =>
      rw [owned] at loses
      exact ⟨owner, rfl, loses⟩

theorem simple_of_ownerOf? {imports : Imports} {simple : Identifier} {owner : TypeName}
    (found : imports.ownerOf? simple = some owner) : owner.simple = simple := by
  simpa using List.find?_some found

theorem find?_handOver_of_ne {owners : List TypeName} {type owner : TypeName}
    (sameSimple : owner.simple = type.simple) {simple : Identifier}
    (other : simple ≠ type.simple) :
    (owners.map fun known => if known = owner then type else known).find?
        (fun known => known.simple == simple) =
      owners.find? fun known => known.simple == simple := by
  have typeApart : (type.simple == simple) = false := by simpa using other.symm
  induction owners with
  | nil =>
      rfl
  | cons known owners inductionHypothesis =>
      rw [List.map_cons, List.find?_cons, List.find?_cons, inductionHypothesis]
      by_cases handed : known = owner
      · have ownerApart : (known.simple == simple) = false := by
          rw [handed, sameSimple]
          exact typeApart
        rw [if_pos handed, typeApart, ownerApart]
      · rw [if_neg handed]

theorem map_simple_handOver {type owner : TypeName} (sameSimple : owner.simple = type.simple)
    (owners : List TypeName) :
    (owners.map fun known => if known = owner then type else known).map TypeName.simple =
      owners.map TypeName.simple := by
  rw [List.map_map]
  apply List.map_congr_left
  intro known _
  rw [Function.comp_apply]
  by_cases isOwner : known = owner
  · rw [if_pos isOwner, isOwner, sameSimple]
  · rw [if_neg isOwner]

/-- A claim changes the owner of the claimed name only. -/
theorem ownerOf?_claim (imports : Imports) (type : TypeName) (simple : Identifier) :
    (imports.claim type).ownerOf? simple =
      if simple = type.simple ∧ imports.wins type = true then some type
      else imports.ownerOf? simple := by
  unfold claim wins
  by_cases primitive : type.isPrimitive = true
  · simp [primitive]
  · simp only [primitive, Bool.false_eq_true, if_false, Bool.not_false, Bool.true_and]
    cases found : imports.ownerOf? type.simple with
    | none =>
        simp only [and_true, ownerOf?, List.find?_append]
        by_cases same : simple = type.simple
        · rw [ownerOf?] at found
          simp [same, found]
        · have apart : (type.simple == simple) = false := by simpa using Ne.symm same
          simp [same, apart]
    | some owner =>
        by_cases hidden : imports.hides type owner = true
        · simp only [hidden, if_true, and_true]
          by_cases same : simple = type.simple
          · rw [if_pos same, same]
            exact find?_handOver found
          · rw [if_neg same]
            exact find?_handOver_of_ne (simple_of_ownerOf? found) same
        · simp [hidden]

theorem owners_claim (imports : Imports) (type : TypeName) :
    (imports.claim type).owners = imports.owners ∨
      (imports.ownerOf? type.simple = none ∧
        (imports.claim type).owners = imports.owners ++ [type]) ∨
      ∃ owner, imports.ownerOf? type.simple = some owner ∧
        (imports.claim type).owners =
          imports.owners.map fun known => if known = owner then type else known := by
  unfold claim
  split
  · exact .inl rfl
  · cases found : imports.ownerOf? type.simple with
    | none =>
        exact .inr (.inl ⟨rfl, rfl⟩)
    | some owner =>
        by_cases hidden : imports.hides type owner = true
        · simp only [hidden, if_true]
          exact .inr (.inr ⟨owner, rfl, rfl⟩)
        · simp [hidden]

/-- What claims have led to: owners have different simple names and are claimants, and
every claimant's simple name has an owner from which the claimant cannot take it. -/
structure Serves (imports : Imports) (claimed : TypeName → Prop) : Prop where
  distinct : (imports.owners.map TypeName.simple).Nodup
  known : ∀ owner ∈ imports.owners, claimed owner
  owned : ∀ type, claimed type → type.isPrimitive = false →
    ∃ owner, imports.ownerOf? type.simple = some owner ∧ imports.hides type owner = false

namespace Serves

variable {imports : Imports} {claimed : TypeName → Prop}

theorem start (unit : TypeName) : (Imports.start unit).Serves fun type => type = unit where
  distinct := List.nodup_singleton _
  known owner member := List.mem_singleton.1 member
  owned type claims _ := by
    subst claims
    refine ⟨type, ?_, hides_self _ type⟩
    simp [ownerOf?, Imports.start]

theorem mem_owners_iff (serves : imports.Serves claimed) (owner : TypeName) :
    owner ∈ imports.owners ↔ imports.ownerOf? owner.simple = some owner := by
  constructor
  · intro member
    have found := Keyed.find?_of_mem serves.distinct member
    simpa only [ownerOf?, beq_eq_decide] using found
  · intro found
    exact List.mem_of_find?_eq_some found

/-- One more claim serves one more claimant. -/
theorem claim (serves : imports.Serves claimed) (type : TypeName) :
    (imports.claim type).Serves fun other => other = type ∨ claimed other where
  distinct := by
    rcases imports.owners_claim type with same | ⟨absent, added⟩ | ⟨owner, found, handed⟩
    · rw [same]
      exact serves.distinct
    · rw [added, List.map_append, List.map_singleton]
      refine List.nodup_append.2 ⟨serves.distinct, List.nodup_singleton _, ?_⟩
      rintro simple member other isType rfl
      obtain ⟨owner, ownerMember, sameSimple⟩ := List.mem_map.1 member
      rw [List.mem_singleton] at isType
      rw [ownerOf?, List.find?_eq_none] at absent
      apply absent owner ownerMember
      rw [sameSimple, isType, beq_self_eq_true]
    · rw [handed, map_simple_handOver (simple_of_ownerOf? found)]
      exact serves.distinct
  known := by
    intro known member
    rcases imports.owners_claim type with same | ⟨-, added⟩ | ⟨owner, -, handed⟩
    · rw [same] at member
      exact .inr (serves.known known member)
    · rw [added] at member
      rcases List.mem_append.1 member with earlier | last
      · exact .inr (serves.known known earlier)
      · exact .inl (List.mem_singleton.1 last)
    · rw [handed] at member
      obtain ⟨earlier, earlierMember, rfl⟩ := List.mem_map.1 member
      by_cases isOwner : earlier = owner
      · rw [if_pos isOwner]
        exact .inl rfl
      · rw [if_neg isOwner]
        exact .inr (serves.known earlier earlierMember)
  owned := by
    intro other claims notPrimitive
    rw [ownerOf?_claim]
    by_cases taken : other.simple = type.simple ∧ imports.wins type = true
    · rw [if_pos taken]
      refine ⟨type, rfl, ?_⟩
      rw [hides_claim]
      rcases claims with rfl | earlier
      · exact hides_self imports _
      · -- The name was taken from a type of `java.lang`, so the new owner is of the file's
        -- package, and nobody takes it from there.
        obtain ⟨owner, found, -⟩ := serves.owned other earlier notPrimitive
        obtain ⟨sameSimple, wins⟩ := taken
        rw [sameSimple] at found
        exact hides_eq_false_of_hides (hides_of_wins found wins) (simple_of_ownerOf? found) other
    · rw [if_neg taken]
      simp only [hides_claim]
      rcases claims with rfl | earlier
      · have loses : imports.wins other = false := by simpa using taken
        exact exists_owner_of_not_wins notPrimitive loses
      · exact serves.owned other earlier notPrimitive

theorem of_iff {other : TypeName → Prop} (serves : imports.Serves claimed)
    (same : ∀ type, claimed type ↔ other type) : imports.Serves other := by
  have equal : claimed = other := funext fun type => propext (same type)
  exact equal ▸ serves

theorem claimAll (serves : imports.Serves claimed) (types : List TypeName) :
    (imports.claimAll types).Serves fun type => type ∈ types ∨ claimed type := by
  induction types generalizing imports claimed with
  | nil =>
      exact serves.of_iff fun type => by simp
  | cons first rest inductionHypothesis =>
      refine (inductionHypothesis (serves.claim first)).of_iff fun type => ?_
      rw [List.mem_cons, or_left_comm, or_assoc]

/-- A type of the file's package does not change which types are imported. -/
theorem mem_imported_claim (serves : imports.Serves claimed) {peer : TypeName}
    (package : peer.package = imports.unit.package) (owner : TypeName) :
    (owner ∈ (imports.claim peer).owners ∧ (imports.claim peer).needsImport owner = true) ↔
      (owner ∈ imports.owners ∧ imports.needsImport owner = true) := by
  have sameNeed : (imports.claim peer).needsImport owner = imports.needsImport owner := by
    rw [needsImport, needsImport, unit_claim]
  rw [sameNeed, (serves.claim peer).mem_owners_iff, serves.mem_owners_iff, ownerOf?_claim]
  by_cases taken : owner.simple = peer.simple ∧ imports.wins peer = true
  · -- The simple name goes over to the peer, which needs no import, from a type that
    -- needs none either.
    rw [if_pos taken]
    obtain ⟨sameSimple, wins⟩ := taken
    constructor
    · rintro ⟨isPeer, needed⟩
      obtain rfl := Option.some.inj isPeer
      simp [needsImport, package] at needed
    · rintro ⟨found, needed⟩
      rw [sameSimple] at found
      obtain ⟨-, ownerPackage, -⟩ := (hides_eq_true_iff _ _ _).1 (hides_of_wins found wins)
      simp [needsImport, TypeName.isImplicit, ownerPackage] at needed
  · rw [if_neg taken]

end Serves

end AheadOfTime.Java.Imports
