import AheadOfTime.Hint.Registry
import AheadOfTime.Proofs.Keyed

/-!
# Laws of the hint registry

Members are put into an entry by member, and entries into a registry by subject and
kind of access.  Merging a registry that was filled from nothing registers the same
hints one by one, and what a registration grants is never taken back by a later
one.
-/

namespace AheadOfTime

open Keyed

theorem Mode.strongest_assoc (first second third : Mode) :
    (first.strongest second).strongest third = first.strongest (second.strongest third) := by
  cases first <;> rfl

theorem Mode.strongest_comm (first second : Mode) :
    first.strongest second = second.strongest first := by
  cases first <;> cases second <;> rfl

theorem weakerCondition_assoc (first second third : Option TypeName) :
    weakerCondition (weakerCondition first second) third =
      weakerCondition first (weakerCondition second third) := by
  grind [weakerCondition]

/-- A condition that is gone or is the given type stays so. -/
theorem weakerCondition_none_or_some {known : Option TypeName} {application : TypeName}
    (weak : known = none ∨ known = some application) (incoming : Option TypeName) :
    weakerCondition known incoming = none ∨
      weakerCondition known incoming = some application := by
  by_cases same : known = incoming
  · rw [weakerCondition, if_pos same]
    exact weak
  · rw [weakerCondition, if_neg same]
    exact Or.inl rfl

def MemberHint.strengthen (hint incoming : MemberHint) : MemberHint :=
  ⟨hint.member, hint.mode.strongest incoming.mode⟩

theorem MemberHint.lawful_strengthen :
    Lawful MemberHint.member MemberHint.strengthen where
  key_combine _ _ := rfl
  assoc _ _ _ := by simp only [strengthen, Mode.strongest_assoc]

theorem MemberHint.exchangeable (first second : MemberHint) :
    Exchangeable MemberHint.strengthen first second := by
  intro hint
  simp only [strengthen, Mode.strongest_assoc, Mode.strongest_comm first.mode]

theorem addMember_eq_put (incoming : MemberHint) (members : List MemberHint) :
    addMember incoming members =
      put MemberHint.member MemberHint.strengthen incoming members := by
  induction members with
  | nil =>
      rfl
  | cons hint rest inductionHypothesis =>
      simp only [addMember, put, inductionHypothesis, MemberHint.strengthen]

theorem addMembers_eq_putAll (known incoming : List MemberHint) :
    addMembers known incoming =
      putAll MemberHint.member MemberHint.strengthen known incoming := by
  simp only [addMembers, putAll, addMember_eq_put]

theorem addMembers_assoc (first second third : List MemberHint) :
    addMembers (addMembers first second) third =
      addMembers first (addMembers second third) := by
  simp only [addMembers_eq_putAll]
  exact (putAll_putAll MemberHint.lawful_strengthen (Or.inr MemberHint.exchangeable)
    first third).symm

def modeIn (members : List MemberHint) (member : Member) : Option Mode :=
  (members.find? fun hint => hint.member = member).map MemberHint.mode

/-- Only a hint for the member itself changes its mode, and makes it no weaker. -/
theorem modeIn_addMember (incoming : MemberHint) (members : List MemberHint)
    (member : Member) :
    modeIn (addMember incoming members) member =
      if incoming.member = member then
        some ((modeIn members member).elim incoming.mode
          fun mode => mode.strongest incoming.mode)
      else
        modeIn members member := by
  rw [modeIn, addMember_eq_put, find?_put MemberHint.lawful_strengthen]
  by_cases same : incoming.member = member
  · rw [if_pos same, if_pos same, modeIn]
    cases members.find? fun hint => hint.member = member <;> rfl
  · rw [if_neg same, if_neg same, modeIn]

theorem modeIn_addMembers_of_invoke {members : List MemberHint} {member : Member}
    (invocable : modeIn members member = some .invoke) (incoming : List MemberHint) :
    modeIn (addMembers members incoming) member = some .invoke := by
  induction incoming generalizing members with
  | nil =>
      exact invocable
  | cons hint incoming inductionHypothesis =>
      refine inductionHypothesis ?_
      rw [modeIn_addMember, invocable]
      by_cases same : hint.member = member
      · rw [if_pos same]
        rfl
      · rw [if_neg same]

namespace HintEntry

theorem lawful_absorb : Lawful key absorb where
  key_combine _ _ := rfl
  assoc _ _ _ := by simp only [absorb, addMembers_assoc, weakerCondition_assoc]

/-- What an entry lets an application do with a member: invoke it, whenever the
application itself is reachable. -/
structure Grants (entry : HintEntry) (member : Member) (application : TypeName) : Prop where
  invocable : entry.modeOf? member = some .invoke
  condition : entry.condition = none ∨ entry.condition = some application

theorem Grants.absorb {entry : HintEntry} {member : Member} {application : TypeName}
    (grants : entry.Grants member application) (incoming : HintEntry) :
    (entry.absorb incoming).Grants member application where
  invocable := modeIn_addMembers_of_invoke grants.invocable incoming.members
  condition := weakerCondition_none_or_some grants.condition incoming.condition

end HintEntry

def Registration.ofUse (application type : TypeName) (member : Member) : Registration :=
  .reflection type member .invoke (some application)

namespace HintEntry

end HintEntry

namespace HintRegistry

/-- The entries determine the index. -/
@[ext]
theorem ext {first second : HintRegistry} (same : first.entries = second.entries) :
    first = second := by
  obtain ⟨entries, index, indexed⟩ := first
  obtain ⟨others, otherIndex, otherIndexed⟩ := second
  obtain rfl : entries = others := same
  obtain rfl := indexed.trans otherIndexed.symm
  rfl

/-- The index finds the position of the first entry with a key. -/
theorem lookup_index (registry : HintRegistry) (key : Subject × AccessKind) :
    registry.index.lookup key = (registry.entries.map HintEntry.key).idxOf? key := by
  rw [registry.indexed, HintEntry.positions, lookup_zipIdx]
  exact Option.map_id_apply

/-- An entry is put into the one with its key, or at the end. -/
theorem entries_insert (registry : HintRegistry) (incoming : HintEntry) :
    (registry.insert incoming).entries =
      put HintEntry.key HintEntry.absorb incoming registry.entries := by
  rw [put_eq_modify, insert, lookup_index]
  cases (registry.entries.map HintEntry.key).idxOf? incoming.key with
  | none =>
      rfl
  | some position =>
      rfl

theorem entries_foldl_insert (incoming : List HintEntry) (registry : HintRegistry) :
    (incoming.foldl insert registry).entries =
      putAll HintEntry.key HintEntry.absorb registry.entries incoming := by
  induction incoming generalizing registry with
  | nil =>
      rfl
  | cons entry incoming inductionHypothesis =>
      rw [List.foldl_cons, inductionHypothesis, putAll_cons, entries_insert]

theorem entries_merge (registry other : HintRegistry) :
    (registry.merge other).entries =
      putAll HintEntry.key HintEntry.absorb registry.entries other.entries :=
  entries_foldl_insert other.entries registry

theorem entries_registerAll (registry : HintRegistry) (registrations : List Registration) :
    (registry.registerAll registrations).entries =
      putAll HintEntry.key HintEntry.absorb registry.entries
        (registrations.map Registration.entry) := by
  rw [← entries_foldl_insert, List.foldl_map]
  rfl

/-- Merging what was registered on an empty registry registers the same hints. -/
theorem merge_registerAll_empty (registry : HintRegistry)
    (registrations : List Registration) :
    registry.merge (empty.registerAll registrations) = registry.registerAll registrations := by
  have sameEntries :
      (registry.merge (empty.registerAll registrations)).entries =
        (registry.registerAll registrations).entries := by
    have distinct : (empty.entries.map HintEntry.key).Nodup := List.nodup_nil
    rw [entries_merge, entries_registerAll, entries_registerAll]
    exact putAll_putAll HintEntry.lawful_absorb (Or.inl distinct) registry.entries _
  exact ext sameEntries

theorem get?_eq_find? (registry : HintRegistry) (subject : Subject) (kind : AccessKind) :
    registry.get? subject kind =
      registry.entries.find? fun entry => entry.key = (subject, kind) := by
  rw [get?, lookup_index, ← getElem?_idxOf?]
  cases (registry.entries.map HintEntry.key).idxOf? (subject, kind) with
  | none =>
      rfl
  | some position =>
      rfl

theorem get?_insert (registry : HintRegistry) (incoming : HintEntry) (subject : Subject)
    (kind : AccessKind) :
    (registry.insert incoming).get? subject kind =
      if incoming.key = (subject, kind) then
        some ((registry.get? subject kind).elim incoming fun entry => entry.absorb incoming)
      else
        registry.get? subject kind := by
  rw [get?_eq_find?, get?_eq_find?, entries_insert, find?_put HintEntry.lawful_absorb]

/-- Whether a registry lets an application use a member of a type by reflection. -/
def Grants (registry : HintRegistry) (application type : TypeName) (member : Member) :
    Prop :=
  ∃ entry, registry.get? (.type type) member.kind = some entry ∧
    entry.Grants member application

theorem Grants.insert {registry : HintRegistry} {application type : TypeName}
    {member : Member} (grants : registry.Grants application type member)
    (incoming : HintEntry) :
    (registry.insert incoming).Grants application type member := by
  obtain ⟨entry, found, granted⟩ := grants
  rw [Grants, get?_insert, found]
  by_cases same : incoming.key = (.type type, member.kind)
  · rw [if_pos same]
    exact ⟨entry.absorb incoming, rfl, granted.absorb incoming⟩
  · rw [if_neg same]
    exact ⟨entry, rfl, granted⟩

theorem Grants.registerAll {registry : HintRegistry} {application type : TypeName}
    {member : Member} (grants : registry.Grants application type member)
    (registrations : List Registration) :
    (registry.registerAll registrations).Grants application type member := by
  induction registrations generalizing registry with
  | nil =>
      exact grants
  | cons registration registrations inductionHypothesis =>
      exact inductionHypothesis (grants.insert registration.entry)

end HintRegistry

end AheadOfTime
