import AheadOfTime.Proofs.Hint.Entries

/-!
# How registries are represented

A registry has its entries in a list and their positions in an index.  In a registry that
can be reached the two agree, there is one entry for each subject and kind of access, and
every entry has the form of its kind.  Registrations and merges move no entry, strengthen
modes and weaken conditions.
-/

namespace AheadOfTime

open Keyed

/-- Whether a hint has become one for the same member in a mode that is no weaker. -/
structure MemberHint.GrowsTo (before after : MemberHint) : Prop where
  member : after.member = before.member
  mode : before.mode = .invoke → after.mode = .invoke

namespace MemberHint

theorem GrowsTo.refl (hint : MemberHint) : hint.GrowsTo hint :=
  ⟨rfl, id⟩

theorem GrowsTo.trans (first second third : MemberHint) (toSecond : first.GrowsTo second)
    (toThird : second.GrowsTo third) : first.GrowsTo third :=
  ⟨toThird.member.trans toSecond.member, fun invocable => toThird.mode (toSecond.mode invocable)⟩

theorem growsTo_strengthen (hint incoming : MemberHint) : hint.GrowsTo (hint.strengthen incoming) :=
  ⟨rfl, fun invocable => (Mode.strongest_eq_invoke_iff _ _).2 (.inl invocable)⟩

end MemberHint

/-- Whether an entry has become one for the same subject and kind, with its members in
place and its condition the same or gone. -/
structure HintEntry.GrowsTo (before after : HintEntry) : Prop where
  subject : after.subject = before.subject
  kind : after.kind = before.kind
  members : StaysIn MemberHint.GrowsTo before.members after.members
  condition : after.condition = before.condition ∨ after.condition = none

namespace HintEntry

theorem GrowsTo.refl (entry : HintEntry) : entry.GrowsTo entry :=
  ⟨rfl, rfl, fun _ hint found => ⟨hint, found, .refl hint⟩, .inl rfl⟩

theorem GrowsTo.trans (first second third : HintEntry) (toSecond : first.GrowsTo second)
    (toThird : second.GrowsTo third) : first.GrowsTo third where
  subject := toThird.subject.trans toSecond.subject
  kind := toThird.kind.trans toSecond.kind
  members := StaysIn.trans MemberHint.GrowsTo.trans toSecond.members toThird.members
  condition := by
    rcases toThird.condition with kept | gone
    · rw [kept]
      exact toSecond.condition
    · exact .inr gone

theorem growsTo_absorb (entry incoming : HintEntry) : entry.GrowsTo (entry.absorb incoming) where
  subject := rfl
  kind := rfl
  members := by
    rw [absorb, addMembers_eq_putAll]
    exact staysIn_putAll MemberHint.GrowsTo.refl MemberHint.GrowsTo.trans
      MemberHint.growsTo_strengthen incoming.members entry.members
  condition := by
    rw [absorb, weakerCondition]
    by_cases same : entry.condition = incoming.condition
    · rw [if_pos same]
      exact .inl rfl
    · rw [if_neg same]
      exact .inr rfl

end HintEntry

namespace HintRegistry

/-- Whether every entry has stayed in its position and grown there. -/
def GrowsTo (before after : HintRegistry) : Prop :=
  StaysIn HintEntry.GrowsTo before.entries after.entries

theorem growsTo_register (registry : HintRegistry) (registration : Registration) :
    registry.GrowsTo (registry.register registration) := by
  rw [GrowsTo, register, entries_insert]
  exact staysIn_put HintEntry.GrowsTo.refl HintEntry.growsTo_absorb registration.entry _

theorem growsTo_merge (registry other : HintRegistry) :
    registry.GrowsTo (registry.merge other) := by
  rw [GrowsTo, entries_merge]
  exact staysIn_putAll HintEntry.GrowsTo.refl HintEntry.GrowsTo.trans HintEntry.growsTo_absorb
    other.entries registry.entries

end HintRegistry

/-- The form that an entry has by its kind: what its members are for, whether it has any, and
what it is about. -/
structure HintEntry.IsFormed (entry : HintEntry) : Prop where
  distinct : (entry.members.map MemberHint.member).Nodup
  ofKind : ∀ hint ∈ entry.members, hint.member.kind = entry.kind
  filled : entry.members ≠ [] ↔
    entry.kind = .construct ∨ entry.kind = .invokeMethod ∨ entry.kind = .readField
  resource : (∃ pattern, entry.subject = .resource pattern) ↔ entry.kind = .loadResource
  proxy : (∃ interfaces, entry.subject = .proxy interfaces) ↔ entry.kind = .proxy
  type : (∃ type, entry.subject = .type type) ↔
    entry.kind ≠ .loadResource ∧ entry.kind ≠ .proxy

theorem AccessKind.isReflection_iff (kind : AccessKind) :
    kind.isReflection = true ↔
      kind = .construct ∨ kind = .invokeMethod ∨ kind = .readField := by
  cases kind <;> decide

theorem HintEntry.Proper.isFormed {entry : HintEntry} (proper : entry.Proper) :
    entry.IsFormed := by
  cases proper with
  | reflection type kind hints condition filled distinct ofKind =>
      have reflective := (AccessKind.isReflection_iff kind).1 (isReflection_of_kinds filled ofKind)
      have other : kind ≠ .loadResource ∧ kind ≠ .proxy := by
        rcases reflective with rfl | rfl | rfl <;> decide
      exact ⟨distinct, ofKind, iff_of_true filled reflective, iff_of_false nofun other.1,
        iff_of_false nofun other.2, iff_of_true ⟨type, rfl⟩ other⟩
  | resource pattern condition =>
      exact ⟨List.nodup_nil, nofun, by simp, by simp, by simp, by simp⟩
  | proxy interfaces condition =>
      exact ⟨List.nodup_nil, nofun, by simp, by simp, by simp, by simp⟩
  | serialization type condition =>
      exact ⟨List.nodup_nil, nofun, by simp, by simp, by simp, by simp⟩

namespace HintRegistry

/-- Whether the index of a registry tells just where the entry for each subject and kind
stands, so that looking an entry up finds what a search through the entries would. -/
structure IsIndexed (registry : HintRegistry) : Prop where
  index : ∀ subject kind position,
    registry.index.lookup (subject, kind) = some position ↔
      ∃ entry, registry.entries[position]? = some entry ∧
        entry.subject = subject ∧ entry.kind = kind
  search : ∀ subject kind, registry.get? subject kind =
    registry.entries.find? fun entry => entry.subject = subject ∧ entry.kind = kind
  keys : registry.entries.Pairwise fun first second =>
    ¬ (first.subject = second.subject ∧ first.kind = second.kind)

theorem isIndexed_of_nodup {registry : HintRegistry}
    (distinct : (registry.entries.map HintEntry.key).Nodup) : registry.IsIndexed where
  index := by
    intro subject kind position
    rw [lookup_index, idxOf?_eq_some_iff_of_nodup distinct, List.getElem?_map,
      Option.map_eq_some_iff]
    simp only [HintEntry.key, Prod.mk.injEq]
  search := by
    intro subject kind
    rw [get?_eq_find?]
    simp only [HintEntry.key, Prod.mk.injEq]
  keys := by
    have apart := List.pairwise_map.1 distinct
    refine apart.imp fun different same => different ?_
    exact Prod.ext same.1 same.2

/-- The index of a registry that can be reached tells where its entries stand, the entries
have the form of their kinds, and a further registration or merge moves none of them, makes
no mode weaker and no condition stronger. -/
theorem reachable_registries_are_represented {registry : HintRegistry}
    (reachable : registry.Reachable) :
    registry.IsIndexed ∧
      (∀ entry ∈ registry.entries, entry.IsFormed) ∧
      (∀ registration, registry.GrowsTo (registry.register registration)) ∧
      ∀ other : HintRegistry, other.Reachable → registry.GrowsTo (registry.merge other) := by
  have proper := reachable.proper
  refine ⟨isIndexed_of_nodup proper.keys, ?_, registry.growsTo_register, ?_⟩
  · exact fun entry member => (proper.entries entry member).isFormed
  · exact fun other _ => registry.growsTo_merge other

theorem cacheRegistrations_are_represented :
    let registry := empty.registerAll cacheRegistrations
    registry.IsIndexed ∧ registry.entries.length = 3 ∧
      (∀ entry ∈ registry.entries, entry.IsFormed) ∧
      registry.GrowsTo (registry.merge (empty.registerAll cacheRegistrations.reverse)) := by
  intro registry
  obtain ⟨isIndexed, formed, -, merges⟩ :=
    reachable_registries_are_represented (Reachable.empty.registerAll cacheRegistrations)
  exact ⟨isIndexed, by decide, formed,
    merges _ (Reachable.empty.registerAll cacheRegistrations.reverse)⟩

end HintRegistry

end AheadOfTime
