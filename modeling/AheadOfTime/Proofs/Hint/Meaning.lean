import Mathlib.Data.List.Nodup
import AheadOfTime.Proofs.Hint.Registry
import AheadOfTime.Proofs.Keyed.Collected

/-!
# What registrations mean

The registry after a sequence of registrations is given in closed form: one entry for
each subject and kind of access, a condition that all of its registrations share, and
the members registered for it, each with the strongest mode.  Hence the order of
registrations shows in the order of entries and members only, and a registration that
was made before changes nothing.
-/

namespace AheadOfTime

open Keyed

namespace Registration

def subject : Registration → Subject
  | reflection type .. => .type type
  | resource pattern _ => .resource pattern
  | proxy interfaces _ => .proxy interfaces
  | serialization type _ => .type type

def kind : Registration → AccessKind
  | reflection _ member .. => member.kind
  | resource .. => .loadResource
  | proxy .. => .proxy
  | serialization .. => .serialize

def key (registration : Registration) : Subject × AccessKind :=
  (registration.subject, registration.kind)

/-- The member that a registration is about; only those about reflection have one. -/
def hint? : Registration → Option MemberHint
  | reflection _ member mode _ => some ⟨member, mode⟩
  | resource .. | proxy .. | serialization .. => none

def condition : Registration → Option TypeName
  | reflection _ _ _ condition => condition
  | resource _ condition => condition
  | proxy _ condition => condition
  | serialization _ condition => condition

theorem entry_eq (registration : Registration) :
    registration.entry =
      ⟨registration.subject, registration.kind, registration.hint?.toList,
        registration.condition⟩ := by
  cases registration <;> rfl

theorem key_entry (registration : Registration) :
    registration.entry.key = registration.key := by
  rw [entry_eq]
  rfl

end Registration

/-- What an entry says when its registrations are the given ones: the condition that all
of them have, and each of their members with the strongest mode. -/
structure HintEntry.IsMeaningOf (entry : HintEntry) (own : List Registration) : Prop where
  condition : ∀ type,
    entry.condition = some type ↔ ∀ registration ∈ own, registration.condition = some type
  members :
    entry.members.map MemberHint.member =
      ((own.filterMap Registration.hint?).map MemberHint.member).eraseDups
  modes : ∀ hint ∈ entry.members,
    hint.mode = .invoke ↔ ⟨hint.member, .invoke⟩ ∈ own.filterMap Registration.hint?

/-- What a registry says when its registrations are the given ones: one entry for each
subject and kind, in the order of their first registrations. -/
structure HintRegistry.IsMeaningOf (registry : HintRegistry)
    (registrations : List Registration) : Prop where
  keys : registry.entries.map HintEntry.key = (registrations.map Registration.key).eraseDups
  lookups : ∀ subject kind entry,
    registry.get? subject kind = some entry ↔
      entry ∈ registry.entries ∧ entry.subject = subject ∧ entry.kind = kind
  entries : ∀ entry ∈ registry.entries,
    entry.IsMeaningOf (registrations.filter fun registration => registration.key = entry.key)

theorem weakerCondition_eq_some_iff (known incoming : Option TypeName) (type : TypeName) :
    weakerCondition known incoming = some type ↔
      known = some type ∧ incoming = some type := by
  unfold weakerCondition
  by_cases same : known = incoming
  · rw [if_pos same, ← same, and_self]
  · rw [if_neg same]
    constructor
    · intro absent
      cases absent
    · rintro ⟨knownIs, incomingIs⟩
      exact absurd (knownIs.trans incomingIs.symm) same

theorem Mode.strongest_eq_invoke_iff (first second : Mode) :
    first.strongest second = .invoke ↔ first = .invoke ∨ second = .invoke := by
  cases first <;> cases second <;> decide

theorem Mode.eq_of_invoke_iff {first second : Mode}
    (same : first = .invoke ↔ second = .invoke) : first = second := by
  cases first <;> cases second <;> simp_all

theorem MemberHint.mode_foldl_strengthen (first : MemberHint) (rest : List MemberHint) :
    (rest.foldl strengthen first).mode = .invoke ↔
      ∃ hint ∈ first :: rest, hint.mode = .invoke := by
  induction rest generalizing first with
  | nil =>
      simp
  | cons next rest inductionHypothesis =>
      rw [List.foldl_cons, inductionHypothesis]
      simp only [List.mem_cons, exists_eq_or_imp, strengthen, Mode.strongest_eq_invoke_iff,
        or_assoc]

/-- A collected hint lets its member be invoked when one of the hints for it does. -/
theorem MemberHint.mode_collected {hints : List MemberHint} {hint : MemberHint}
    (member : hint ∈ putAll MemberHint.member strengthen [] hints) :
    hint.mode = .invoke ↔ ⟨hint.member, .invoke⟩ ∈ hints := by
  have made := together_of_mem lawful_strengthen member
  cases own : hints.filter fun other => other.member = hint.member with
  | nil =>
      rw [own] at made
      cases made
  | cons first rest =>
      rw [own] at made
      obtain rfl := Option.some.inj made
      rw [mode_foldl_strengthen, ← own]
      simp only [List.mem_filter, decide_eq_true_eq]
      constructor
      · rintro ⟨other, ⟨otherMember, sameMember⟩, invocable⟩
        rw [← sameMember, ← invocable]
        exact otherMember
      · intro granted
        exact ⟨_, ⟨granted, rfl⟩, rfl⟩

namespace HintEntry

theorem together_entries {own : List Registration} {entry : HintEntry}
    (made : together absorb (own.map Registration.entry) = some entry) :
    entry.members = putAll MemberHint.member MemberHint.strengthen []
        (own.filterMap Registration.hint?) ∧
      ∀ type, entry.condition = some type ↔
        ∀ registration ∈ own, registration.condition = some type := by
  induction own using List.reverseRecOn generalizing entry with
  | nil =>
      cases made
  | append_singleton own last inductionHypothesis =>
      rw [List.map_append, List.map_singleton, together_concat, Option.some.injEq] at made
      have lastHints : [last].filterMap Registration.hint? = last.hint?.toList := by
        cases made : last.hint? <;> simp [made]
      rw [List.filterMap_append, lastHints, putAll_append]
      simp only [List.forall_mem_append, List.forall_mem_singleton]
      cases earlier : together absorb (own.map Registration.entry) with
      | none =>
          have noneBefore : own = [] := by
            cases own with
            | nil =>
                rfl
            | cons first rest =>
                cases earlier
          rw [earlier, Option.elim_none, Registration.entry_eq] at made
          subst made noneBefore
          constructor
          · cases last.hint? <;> rfl
          · simp
      | some known =>
          rw [earlier, Option.elim_some, Registration.entry_eq] at made
          subst made
          obtain ⟨members, condition⟩ := inductionHypothesis earlier
          constructor
          · rw [absorb, addMembers_eq_putAll, members]
          · intro type
            rw [absorb, weakerCondition_eq_some_iff, condition]

end HintEntry

namespace HintRegistry

theorem get?_eq_some_iff {registry : HintRegistry}
    (distinct : (registry.entries.map HintEntry.key).Nodup) (subject : Subject)
    (kind : AccessKind) (entry : HintEntry) :
    registry.get? subject kind = some entry ↔
      entry ∈ registry.entries ∧ entry.subject = subject ∧ entry.kind = kind := by
  rw [get?_eq_find?]
  constructor
  · intro found
    have sameKey : entry.key = (subject, kind) := by simpa using List.find?_some found
    exact ⟨List.mem_of_find?_eq_some found, Prod.mk.inj sameKey⟩
  · rintro ⟨member, rfl, rfl⟩
    exact find?_of_mem distinct member

theorem entries_registerAll_empty (registrations : List Registration) :
    (empty.registerAll registrations).entries =
      putAll HintEntry.key HintEntry.absorb [] (registrations.map Registration.entry) :=
  entries_registerAll empty registrations

theorem get?_eq_none_iff (registry : HintRegistry) (subject : Subject) (kind : AccessKind) :
    registry.get? subject kind = none ↔
      (subject, kind) ∉ registry.entries.map HintEntry.key := by
  rw [get?_eq_find?]
  simp

theorem nodup_keys_registerAll (registrations : List Registration) :
    ((empty.registerAll registrations).entries.map HintEntry.key).Nodup := by
  rw [entries_registerAll_empty]
  exact nodup_keys_collected HintEntry.lawful_absorb _

theorem isMeaningOf_registerAll (registrations : List Registration) :
    (empty.registerAll registrations).IsMeaningOf registrations where
  keys := by
    have sameKeys : HintEntry.key ∘ Registration.entry = Registration.key :=
      funext Registration.key_entry
    rw [entries_registerAll_empty, map_key_putAll HintEntry.lawful_absorb, List.map_map,
      sameKeys]
  lookups := get?_eq_some_iff (nodup_keys_registerAll registrations)
  entries := by
    intro entry member
    rw [entries_registerAll_empty] at member
    have made := together_of_mem HintEntry.lawful_absorb member
    rw [List.filter_map] at made
    have sameOwn : registrations.filter
        ((fun other => decide (other.key = entry.key)) ∘ Registration.entry) =
        registrations.filter fun registration => registration.key = entry.key :=
      List.filter_congr fun registration _ => by
        rw [Function.comp_apply, Registration.key_entry]
    rw [sameOwn] at made
    obtain ⟨members, condition⟩ := HintEntry.together_entries made
    refine ⟨condition, ?_, fun hint hintMember => ?_⟩
    · rw [members]
      exact map_key_putAll MemberHint.lawful_strengthen _
    · rw [members] at hintMember
      exact MemberHint.mode_collected hintMember

end HintRegistry

/-! ## Order -/

/-- Two entries that differ in the order of their members at most. -/
structure HintEntry.SameUpToOrder (first second : HintEntry) : Prop where
  subject : first.subject = second.subject
  kind : first.kind = second.kind
  members : first.members.Perm second.members
  condition : first.condition = second.condition

/-- Two registries that differ in the order of their entries and members at most. -/
structure HintRegistry.SameUpToOrder (first second : HintRegistry) : Prop where
  keys : (first.entries.map HintEntry.key).Perm (second.entries.map HintEntry.key)
  entries : ∀ subject kind,
    Option.Rel HintEntry.SameUpToOrder (first.get? subject kind) (second.get? subject kind)
  modes : ∀ subject kind member,
    ((first.get? subject kind).bind fun entry => entry.modeOf? member) =
      (second.get? subject kind).bind fun entry => entry.modeOf? member

namespace HintEntry.IsMeaningOf

variable {entry : HintEntry} {own : List Registration}

theorem nodup_members (meaning : entry.IsMeaningOf own) :
    (entry.members.map MemberHint.member).Nodup := by
  rw [meaning.members]
  exact nodup_eraseDups _

theorem mem_members_iff (meaning : entry.IsMeaningOf own) (hint : MemberHint) :
    hint ∈ entry.members ↔
      hint.member ∈ (own.filterMap Registration.hint?).map MemberHint.member ∧
        (hint.mode = .invoke ↔
          ⟨hint.member, .invoke⟩ ∈ own.filterMap Registration.hint?) := by
  rw [← List.mem_eraseDups (l := (own.filterMap _).map _), ← meaning.members]
  constructor
  · intro member
    exact ⟨List.mem_map_of_mem member, meaning.modes hint member⟩
  · rintro ⟨known, mode⟩
    obtain ⟨found, foundMember, sameMember⟩ := List.mem_map.1 known
    have foundMode := meaning.modes found foundMember
    rw [sameMember, ← mode] at foundMode
    have same : found = hint := by
      rw [MemberHint.mk.injEq]
      exact ⟨sameMember, Mode.eq_of_invoke_iff foundMode⟩
    exact same ▸ foundMember

/-- An entry takes up nothing from a registration that it stands for already. -/
theorem absorb_of_mem (meaning : entry.IsMeaningOf own) {registration : Registration}
    (made : registration ∈ own) : entry.absorb registration.entry = entry := by
  have condition :
      weakerCondition entry.condition registration.condition = entry.condition := by
    apply Option.ext
    intro type
    rw [weakerCondition_eq_some_iff]
    constructor
    · exact And.left
    · intro needed
      exact ⟨needed, (meaning.condition type).1 needed registration made⟩
  have members : addMembers entry.members registration.hint?.toList = entry.members := by
    cases given : registration.hint? with
    | none =>
        rfl
    | some hint =>
        have registered : hint ∈ own.filterMap Registration.hint? :=
          List.mem_filterMap.2 ⟨registration, made, given⟩
        have memberKnown : hint.member ∈ entry.members.map MemberHint.member := by
          rw [meaning.members, List.mem_eraseDups]
          exact List.mem_map_of_mem registered
        rw [Option.toList_some, addMembers_eq_putAll, putAll_cons, putAll_nil]
        apply put_of_absorbed (List.mem_map.1 memberKnown)
        intro known knownMember sameMember
        have mode := meaning.modes known knownMember
        rw [MemberHint.strengthen, MemberHint.mk.injEq]
        refine ⟨rfl, Mode.eq_of_invoke_iff ?_⟩
        rw [Mode.strongest_eq_invoke_iff, or_iff_left_iff_imp, mode]
        intro invocable
        rw [sameMember, ← invocable]
        exact registered
  rw [registration.entry_eq, absorb, members, condition]

end HintEntry.IsMeaningOf

namespace HintEntry.SameUpToOrder

variable {first second : HintEntry}

/-- Entries with the same meaning differ in the order of their members at most. -/
theorem of_isMeaningOf {own other : List Registration} (firstMeaning : first.IsMeaningOf own)
    (secondMeaning : second.IsMeaningOf other) (sameKey : first.key = second.key)
    (same : ∀ registration, registration ∈ own ↔ registration ∈ other) :
    first.SameUpToOrder second where
  subject := congrArg Prod.fst sameKey
  kind := congrArg Prod.snd sameKey
  members := by
    have firstDistinct : first.members.Nodup :=
      List.Nodup.of_map _ firstMeaning.nodup_members
    have secondDistinct : second.members.Nodup :=
      List.Nodup.of_map _ secondMeaning.nodup_members
    rw [List.perm_ext_iff_of_nodup firstDistinct secondDistinct]
    intro hint
    rw [firstMeaning.mem_members_iff, secondMeaning.mem_members_iff]
    simp only [List.mem_map, List.mem_filterMap, same]
  condition := by
    apply Option.ext
    intro type
    have firstCondition := firstMeaning.condition type
    have secondCondition := secondMeaning.condition type
    simp only [same] at firstCondition
    rw [firstCondition, secondCondition]

theorem modeOf?_eq (same : first.SameUpToOrder second)
    (distinct : (first.members.map MemberHint.member).Nodup) (member : Member) :
    first.modeOf? member = second.modeOf? member := by
  have secondDistinct : (second.members.map MemberHint.member).Nodup :=
    (same.members.map MemberHint.member).nodup distinct
  apply Option.ext
  intro mode
  have listed : ∀ entry : HintEntry, (entry.members.map MemberHint.member).Nodup →
      (entry.modeOf? member = some mode ↔ ⟨member, mode⟩ ∈ entry.members) := by
    intro entry distinctMembers
    rw [modeOf?, Option.map_eq_some_iff]
    constructor
    · rintro ⟨hint, found, rfl⟩
      have isMember : hint.member = member := by simpa using List.find?_some found
      exact isMember ▸ List.mem_of_find?_eq_some found
    · intro granted
      refine ⟨⟨member, mode⟩, ?_, rfl⟩
      simpa only [beq_eq_decide] using find?_of_mem distinctMembers granted
  rw [listed first distinct, listed second secondDistinct, same.members.mem_iff]

end HintEntry.SameUpToOrder

namespace HintRegistry

theorem bind_eq_of_rel {α β : Type} {related : α → α → Prop} {first second : Option α}
    (same : Option.Rel related first second) {next : α → Option β}
    (agree : ∀ left right, first = some left → related left right → next left = next right) :
    first.bind next = second.bind next := by
  cases same with
  | none =>
      rfl
  | some both =>
      exact agree _ _ rfl both

/-- The order and number of registrations shows in the order of entries and members
only. -/
theorem sameUpToOrder_of_same_registrations {first second : List Registration}
    (same : ∀ registration, registration ∈ first ↔ registration ∈ second) :
    (empty.registerAll first).SameUpToOrder (empty.registerAll second) := by
  have firstMeaning := isMeaningOf_registerAll first
  have secondMeaning := isMeaningOf_registerAll second
  have keys : ∀ key, key ∈ (empty.registerAll first).entries.map HintEntry.key ↔
      key ∈ (empty.registerAll second).entries.map HintEntry.key := by
    intro key
    rw [firstMeaning.keys, secondMeaning.keys, List.mem_eraseDups, List.mem_eraseDups]
    simp only [List.mem_map, same]
  have entries : ∀ subject kind, Option.Rel HintEntry.SameUpToOrder
      ((empty.registerAll first).get? subject kind)
      ((empty.registerAll second).get? subject kind) := by
    intro subject kind
    cases found : (empty.registerAll first).get? subject kind with
    | none =>
        have absent := (get?_eq_none_iff _ subject kind).1 found
        rw [keys, ← get?_eq_none_iff] at absent
        rw [absent]
        exact Option.Rel.none
    | some entry =>
        obtain ⟨member, rfl, rfl⟩ := (firstMeaning.lookups subject kind entry).1 found
        have known : entry.key ∈ (empty.registerAll second).entries.map HintEntry.key :=
          (keys entry.key).1 (List.mem_map_of_mem member)
        obtain ⟨other, otherMember, sameKey⟩ := List.mem_map.1 known
        have otherFound := (secondMeaning.lookups entry.subject entry.kind other).2
          ⟨otherMember, Prod.mk.inj sameKey⟩
        rw [otherFound]
        apply Option.Rel.some
        refine HintEntry.SameUpToOrder.of_isMeaningOf (firstMeaning.entries entry member)
          (secondMeaning.entries other otherMember) sameKey.symm fun registration => ?_
        rw [List.mem_filter, List.mem_filter, same, sameKey]
  refine ⟨?_, entries, ?_⟩
  · rw [List.perm_ext_iff_of_nodup (nodup_keys_registerAll first)
      (nodup_keys_registerAll second)]
    exact keys
  · intro subject kind member
    refine bind_eq_of_rel (entries subject kind) fun entry other found sameEntry => ?_
    have entryMember := ((firstMeaning.lookups subject kind entry).1 found).1
    exact sameEntry.modeOf?_eq (firstMeaning.entries entry entryMember).nodup_members member

theorem registerAll_append (registry : HintRegistry) (first second : List Registration) :
    registry.registerAll (first ++ second) =
      (registry.registerAll first).registerAll second :=
  List.foldl_append

/-- A registration that was made before changes nothing. -/
theorem register_of_mem {registrations : List Registration} {registration : Registration}
    (made : registration ∈ registrations) :
    (empty.registerAll registrations).register registration =
      empty.registerAll registrations := by
  have meaning := isMeaningOf_registerAll registrations
  have keyKnown : registration.key ∈
      (empty.registerAll registrations).entries.map HintEntry.key := by
    rw [meaning.keys, List.mem_eraseDups]
    exact List.mem_map_of_mem made
  have known : ∃ entry ∈ (empty.registerAll registrations).entries,
      entry.key = registration.entry.key := by
    rw [registration.key_entry]
    exact List.mem_map.1 keyKnown
  have unchanged : ∀ entry ∈ (empty.registerAll registrations).entries,
      entry.key = registration.entry.key → entry.absorb registration.entry = entry := by
    intro entry member sameKey
    rw [registration.key_entry] at sameKey
    apply (meaning.entries entry member).absorb_of_mem
    rw [List.mem_filter]
    exact ⟨made, decide_eq_true sameKey.symm⟩
  have sameEntries := put_of_absorbed known unchanged
  rw [← entries_insert] at sameEntries
  exact ext sameEntries

theorem registerAll_of_subset {registrations repeated : List Registration}
    (made : ∀ registration ∈ repeated, registration ∈ registrations) :
    (empty.registerAll registrations).registerAll repeated =
      empty.registerAll registrations := by
  induction repeated with
  | nil =>
      rfl
  | cons registration repeated inductionHypothesis =>
      obtain ⟨first, rest⟩ := List.forall_mem_cons.1 made
      rw [registerAll, List.foldl_cons, register_of_mem first]
      exact inductionHypothesis rest

/-- The registry after registrations says for each subject and kind of access what its
registrations say together; their order shows in the order of entries and members
only, and making some of them again changes nothing. -/
theorem registrations_determine_registry (registrations : List Registration) :
    (empty.registerAll registrations).IsMeaningOf registrations ∧
      (∀ permuted, registrations.Perm permuted →
        (empty.registerAll registrations).SameUpToOrder (empty.registerAll permuted)) ∧
      ∀ before repeated after, registrations = before ++ after →
        (∀ registration ∈ repeated, registration ∈ before) →
          empty.registerAll (before ++ repeated ++ after) = empty.registerAll registrations := by
  refine ⟨isMeaningOf_registerAll registrations, ?_, ?_⟩
  · intro permuted permutation
    exact sameUpToOrder_of_same_registrations fun registration => permutation.mem_iff
  · rintro before repeated after rfl made
    rw [registerAll_append, registerAll_append, registerAll_of_subset made,
      registerAll_append]

/-- Registrations of which two are for one method, under one condition and in both
modes. -/
def cacheRegistrations : List Registration :=
  let app : TypeName := ⟨[{ text := "com" }, { text := "acme" }], { text := "App" }⟩
  let cache : TypeName := ⟨[{ text := "com" }, { text := "acme" }], { text := "Cache" }⟩
  [.reflection cache (.ofMethod "start" []) .introspect (some app),
    .resource "cache/*" none,
    .reflection cache (.ofMethod "start" []) .invoke (some app),
    .serialization cache (some app)]

theorem cacheRegistrations_determine_registry :
    (empty.registerAll cacheRegistrations).SameUpToOrder
        (empty.registerAll cacheRegistrations.reverse) ∧
      empty.registerAll
          (cacheRegistrations.take 3 ++ cacheRegistrations.take 2 ++ cacheRegistrations.drop 3) =
        empty.registerAll cacheRegistrations := by
  obtain ⟨-, permuted, repeated⟩ := registrations_determine_registry cacheRegistrations
  constructor
  · exact permuted _ cacheRegistrations.reverse_perm.symm
  · exact repeated _ _ _ (List.take_append_drop 3 cacheRegistrations).symm (by decide)

end HintRegistry

end AheadOfTime
