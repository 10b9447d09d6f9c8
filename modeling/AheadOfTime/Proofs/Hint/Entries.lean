import AheadOfTime.Proofs.Hint.Configuration
import AheadOfTime.Proofs.Hint.Merging

/-!
# Entries that registrations lead to

Every entry of a registry that can be reached has the shape that its subject asks for.
So its members and its condition say how to register it again, and registering every
entry again makes the same registry.
-/

namespace AheadOfTime

open Keyed

/-- The shape of an entry: one about reflection has members, all different and of its
kind; every other has none. -/
inductive HintEntry.Proper : HintEntry → Prop where
  | reflection (type : TypeName) (kind : AccessKind) (hints : List MemberHint)
      (condition : Option TypeName) (filled : hints ≠ [])
      (distinct : (hints.map MemberHint.member).Nodup)
      (ofKind : ∀ hint ∈ hints, hint.member.kind = kind) :
      Proper ⟨.type type, kind, hints, condition⟩
  | resource (pattern : String) (condition : Option TypeName) :
      Proper ⟨.resource pattern, .loadResource, [], condition⟩
  | proxy (interfaces : List TypeName) (condition : Option TypeName) :
      Proper ⟨.proxy interfaces, .proxy, [], condition⟩
  | serialization (type : TypeName) (condition : Option TypeName) :
      Proper ⟨.type type, .serialize, [], condition⟩

/-- The shape of a registry: one entry for each subject and kind, each of its shape. -/
structure HintRegistry.Proper (registry : HintRegistry) : Prop where
  keys : (registry.entries.map HintEntry.key).Nodup
  entries : ∀ entry ∈ registry.entries, entry.Proper

theorem isReflection_of_kinds {hints : List MemberHint} {kind : AccessKind}
    (filled : hints ≠ []) (ofKind : ∀ hint ∈ hints, hint.member.kind = kind) :
    kind.isReflection = true := by
  obtain ⟨hint, member⟩ := List.exists_mem_of_ne_nil hints filled
  rw [← ofKind hint member]
  exact hint.member.kind_isReflection

namespace Registration

/-- A registration with a member is one about reflection. -/
theorem kind_eq_of_hint? {registration : Registration} {hint : MemberHint}
    (given : registration.hint? = some hint) : hint.member.kind = registration.kind := by
  cases registration with
  | reflection type member mode condition =>
      obtain rfl := Option.some.inj given
      rfl
  | resource pattern condition =>
      cases given
  | proxy interfaces condition =>
      cases given
  | serialization type condition =>
      cases given

end Registration

namespace HintEntry.IsMeaningOf

variable {entry : HintEntry} {own : List Registration}

theorem kind_of_mem_members (meaning : entry.IsMeaningOf own)
    (ownKeys : ∀ registration ∈ own, registration.key = entry.key) {hint : MemberHint}
    (member : hint ∈ entry.members) : hint.member.kind = entry.kind := by
  have registered := ((meaning.mem_members_iff hint).1 member).1
  obtain ⟨known, knownMember, sameMember⟩ := List.mem_map.1 registered
  obtain ⟨registration, made, given⟩ := List.mem_filterMap.1 knownMember
  have sameKind : registration.kind = entry.kind :=
    congrArg Prod.snd (ownKeys registration made)
  rw [← sameMember, ← sameKind]
  exact Registration.kind_eq_of_hint? given

theorem members_eq_nil (meaning : entry.IsMeaningOf own)
    (ownKeys : ∀ registration ∈ own, registration.key = entry.key)
    (notReflective : entry.kind.isReflection = false) : entry.members = [] := by
  rw [List.eq_nil_iff_forall_not_mem]
  intro hint member
  have reflective := hint.member.kind_isReflection
  rw [meaning.kind_of_mem_members ownKeys member, notReflective] at reflective
  cases reflective

/-- An entry has the shape that any of its registrations asks for. -/
theorem proper (meaning : entry.IsMeaningOf own)
    (ownKeys : ∀ registration ∈ own, registration.key = entry.key)
    (filled : own ≠ []) : entry.Proper := by
  obtain ⟨registration, made⟩ := List.exists_mem_of_ne_nil own filled
  have sameKey := ownKeys registration made
  have noMembers := meaning.members_eq_nil ownKeys
  have kinds : ∀ hint ∈ entry.members, hint.member.kind = entry.kind := fun _ member =>
    meaning.kind_of_mem_members ownKeys member
  have distinct := meaning.nodup_members
  have members := meaning.members
  obtain ⟨subject, kind, hints, condition⟩ := entry
  cases registration with
  | reflection type member mode required =>
      obtain ⟨rfl, rfl⟩ := Prod.mk.inj sameKey
      refine .reflection type _ hints condition ?_ distinct kinds
      rintro rfl
      have registered : (⟨member, mode⟩ : MemberHint) ∈ own.filterMap Registration.hint? :=
        List.mem_filterMap.2 ⟨_, made, rfl⟩
      have listed : member ∈
          ((own.filterMap Registration.hint?).map MemberHint.member).eraseDups :=
        List.mem_eraseDups.2 (List.mem_map.2 ⟨_, registered, rfl⟩)
      rw [← members] at listed
      cases listed
  | resource pattern required =>
      obtain ⟨rfl, rfl⟩ := Prod.mk.inj sameKey
      obtain rfl : hints = [] := noMembers rfl
      exact .resource pattern condition
  | proxy interfaces required =>
      obtain ⟨rfl, rfl⟩ := Prod.mk.inj sameKey
      obtain rfl : hints = [] := noMembers rfl
      exact .proxy interfaces condition
  | serialization type required =>
      obtain ⟨rfl, rfl⟩ := Prod.mk.inj sameKey
      obtain rfl : hints = [] := noMembers rfl
      exact .serialization type condition

end HintEntry.IsMeaningOf

theorem HintRegistry.Reachable.proper {registry : HintRegistry}
    (reachable : registry.Reachable) : registry.Proper := by
  obtain ⟨registrations, rfl⟩ := reachable.exists_registerAll
  have meaning := isMeaningOf_registerAll registrations
  refine ⟨nodup_keys_registerAll registrations, ?_⟩
  intro entry member
  apply (meaning.entries entry member).proper
  · intro registration made
    simpa using (List.mem_filter.1 made).2
  · have known : entry.key ∈ registrations.map Registration.key := by
      rw [← List.mem_eraseDups, ← meaning.keys]
      exact List.mem_map_of_mem member
    obtain ⟨registration, made, sameKey⟩ := List.mem_map.1 known
    exact List.ne_nil_of_mem (List.mem_filter.2 ⟨made, decide_eq_true sameKey⟩)

namespace HintEntry

def registrations (entry : HintEntry) : List Registration :=
  match entry.subject with
  | .type type =>
      if entry.kind.isReflection then
        entry.members.map fun hint =>
          .reflection type hint.member hint.mode entry.condition
      else
        [.serialization type entry.condition]
  | .resource pattern => [.resource pattern entry.condition]
  | .proxy interfaces => [.proxy interfaces entry.condition]

theorem registrations_of_reflection {kind : AccessKind} (reflective : kind.isReflection = true)
    (type : TypeName) (hints : List MemberHint) (condition : Option TypeName) :
    registrations ⟨.type type, kind, hints, condition⟩ =
      hints.map fun hint => .reflection type hint.member hint.mode condition :=
  if_pos reflective

theorem foldl_absorb_singletons (subject : Subject) (kind : AccessKind)
    (condition : Option TypeName) (known hints : List MemberHint) :
    (hints.map fun hint => (⟨subject, kind, [hint], condition⟩ : HintEntry)).foldl absorb
        ⟨subject, kind, known, condition⟩ =
      ⟨subject, kind, addMembers known hints, condition⟩ := by
  induction hints generalizing known with
  | nil =>
      rfl
  | cons hint hints inductionHypothesis =>
      have sameCondition : weakerCondition condition condition = condition := if_pos rfl
      rw [List.map_cons, List.foldl_cons, absorb, sameCondition, inductionHypothesis]
      rfl

/-- An entry is what its registrations make. -/
theorem Proper.putAll_registrations {entry : HintEntry} (proper : entry.Proper) :
    putAll key absorb [] (entry.registrations.map Registration.entry) = [entry] := by
  cases proper with
  | reflection type kind hints condition filled distinct ofKind =>
      have reflective := isReflection_of_kinds filled ofKind
      have made : (registrations ⟨.type type, kind, hints, condition⟩).map Registration.entry =
          hints.map fun hint => ⟨.type type, kind, [hint], condition⟩ := by
        rw [registrations_of_reflection reflective, List.map_map]
        apply List.map_congr_left
        intro hint member
        rw [Function.comp_apply, Registration.entry, ofKind hint member]
      obtain ⟨first, rest, rfl⟩ := List.exists_cons_of_ne_nil filled
      have together : addMembers [first] rest = first :: rest := by
        rw [addMembers_eq_putAll]
        exact putAll_of_nodup distinct
      rw [made, List.map_cons, putAll_cons, put,
        putAll_singleton_of_same_key lawful_absorb, foldl_absorb_singletons, together]
      intro other member
      obtain ⟨hint, -, rfl⟩ := List.mem_map.1 member
      rfl
  | resource pattern condition =>
      rfl
  | proxy interfaces condition =>
      rfl
  | serialization type condition =>
      rfl

theorem Proper.key_of_mem_registrations {entry : HintEntry} (proper : entry.Proper)
    {registration : Registration} (member : registration ∈ entry.registrations) :
    registration.key = entry.key := by
  cases proper with
  | reflection type kind hints condition filled distinct ofKind =>
      rw [registrations_of_reflection (isReflection_of_kinds filled ofKind)] at member
      obtain ⟨hint, hintMember, rfl⟩ := List.mem_map.1 member
      exact congrArg (Prod.mk (Subject.type type)) (ofKind hint hintMember)
  | resource pattern condition =>
      obtain rfl := List.mem_singleton.1 member
      rfl
  | proxy interfaces condition =>
      obtain rfl := List.mem_singleton.1 member
      rfl
  | serialization type condition =>
      obtain rfl := List.mem_singleton.1 member
      rfl

/-- Registrations of entries with different keys make the entries in turn. -/
theorem putAll_flatMap_registrations {entries : List HintEntry}
    (distinct : (entries.map key).Nodup) (proper : ∀ entry ∈ entries, entry.Proper) :
    putAll key absorb [] ((entries.flatMap registrations).map Registration.entry) =
      entries := by
  induction entries using List.reverseRecOn with
  | nil =>
      rfl
  | append_singleton entries last inductionHypothesis =>
      obtain ⟨earlierProper, lastProper⟩ := List.forall_mem_append.1 proper
      have lastProper := List.forall_mem_singleton.1 lastProper
      rw [List.map_append, List.map_singleton] at distinct
      have fresh : last.key ∉ entries.map key := by
        intro known
        exact (List.nodup_append.1 distinct).2.2 _ known _ (List.mem_singleton_self _) rfl
      have earlier := inductionHypothesis (List.nodup_append.1 distinct).1 earlierProper
      rw [List.flatMap_append, List.flatMap_singleton, List.map_append, putAll_append, earlier]
      have ofNewKey : ∀ made ∈ last.registrations.map Registration.entry,
          made.key ∉ entries.map key := by
        intro made member
        obtain ⟨registration, registrationMember, rfl⟩ := List.mem_map.1 member
        rw [registration.key_entry, lastProper.key_of_mem_registrations registrationMember]
        exact fresh
      have apart : putAll key absorb (entries ++ []) _ = entries ++ putAll key absorb [] _ :=
        putAll_append_of_fresh ofNewKey []
      rw [List.append_nil] at apart
      rw [apart, lastProper.putAll_registrations]

end HintEntry

/-- Registering every entry of a registry again makes the registry. -/
theorem HintRegistry.Proper.registerAll_registrations {registry : HintRegistry}
    (proper : registry.Proper) :
    empty.registerAll (registry.entries.flatMap HintEntry.registrations) = registry := by
  have entries := HintEntry.putAll_flatMap_registrations proper.keys proper.entries
  rw [← entries_registerAll_empty] at entries
  exact ext entries

end AheadOfTime
