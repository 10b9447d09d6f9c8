import Mathlib.Data.Prod.Basic
import AheadOfTime.Proofs.Hint.Entries
import AheadOfTime.Proofs.Hint.Reading

/-!
# What configuration files list

The files of a registry are there when the registry has something for them, and they
list what its entries say: every hint once, in the element of its type and condition,
and every other entry once, in order.  So the hints can be recovered from the files.
-/

namespace AheadOfTime

open Keyed

/-- A type and a condition, which members are listed under. -/
abbrev HintPlace := TypeName × Option TypeName

namespace TypeAccess

def hints (access : TypeAccess) : List MemberHint :=
  (access.fields.map fun field =>
      ⟨.ofField field.name, if field.allowWrite then .invoke else .introspect⟩) ++
    (access.methods.map fun method =>
      ⟨.ofMethod method.name method.parameters, .invoke⟩) ++
    access.queriedMethods.map fun method =>
      ⟨.ofMethod method.name method.parameters, .introspect⟩

def placedHints (access : TypeAccess) : List (HintPlace × MemberHint) :=
  access.hints.map fun hint => (access.key, hint)

theorem hints_absorb (access incoming : TypeAccess) :
    (access.absorb incoming).hints.Perm (access.hints ++ incoming.hints) := by
  simp only [hints, absorb, List.map_append]
  rw [List.perm_iff_count]
  intro hint
  simp only [List.count_append]
  omega

theorem hints_addMember (name : TypeName) (condition : Option TypeName) (hint : MemberHint) :
    ((empty name condition).addMember hint).hints = [hint] := by
  obtain ⟨⟨memberName, parameters⟩, mode⟩ := hint
  cases parameters <;> cases mode <;> rfl

theorem hints_addMembers (name : TypeName) (condition : Option TypeName)
    (members : List MemberHint) :
    ((empty name condition).addMembers members).hints.Perm members := by
  induction members using List.reverseRecOn with
  | nil =>
      exact List.Perm.refl _
  | append_singleton members last inductionHypothesis =>
      have absorbed :
          (empty name condition).addMembers (members ++ [last]) =
            ((empty name condition).addMembers members).absorb
              ((empty name condition).addMember last) := by
        rw [← addMember_eq_absorb]
        simp only [addMembers, List.foldl_append, List.foldl_cons, List.foldl_nil]
      rw [absorbed]
      refine (hints_absorb _ _).trans ?_
      rw [hints_addMember]
      exact inductionHypothesis.append_right [last]

theorem placedHints_absorb (access incoming : TypeAccess) (sameKey : access.key = incoming.key) :
    (access.absorb incoming).placedHints.Perm (access.placedHints ++ incoming.placedHints) := by
  have key : (access.absorb incoming).key = access.key := rfl
  rw [placedHints, placedHints, placedHints, key, ← sameKey, ← List.map_append]
  exact (hints_absorb access incoming).map _

end TypeAccess

namespace HintEntry

def place? (entry : HintEntry) : Option HintPlace :=
  match entry.kind.isReflection, entry.subject with
  | true, .type type => some (type, entry.condition)
  | _, _ => none

def placedHints (entry : HintEntry) : List (HintPlace × MemberHint) :=
  entry.place?.elim [] fun place => entry.members.map fun hint => (place, hint)

end HintEntry

namespace NativeConfiguration

theorem element?_eq (entry : HintEntry) :
    element? entry = entry.place?.map fun place =>
      (TypeAccess.empty place.1 place.2).addMembers entry.members := by
  unfold element? HintEntry.place?
  cases entry.kind.isReflection <;> cases entry.subject <;> rfl

/-- There is one element for each place, in the order in which entries have it first. -/
theorem keys_reflectionOf (entries : List HintEntry) :
    (reflectionOf entries).map TypeAccess.key =
      (entries.filterMap HintEntry.place?).eraseDups := by
  have places : (entries.filterMap element?).map TypeAccess.key =
      entries.filterMap HintEntry.place? := by
    rw [List.map_filterMap]
    apply List.filterMap_congr
    intro entry _
    rw [element?_eq, Option.map_map]
    have same : (TypeAccess.key ∘ fun place : HintPlace =>
        (TypeAccess.empty place.1 place.2).addMembers entry.members) = id :=
      funext fun place => TypeAccess.key_addMembers _ _
    rw [same, Option.map_id_apply]
  rw [reflectionOf, foldl_addEntry, map_key_putAll TypeAccess.lawful_absorb, places]

/-- The elements list the hints of the entries, each as often as the entries have it. -/
theorem placedHints_reflectionOf (entries : List HintEntry) :
    ((reflectionOf entries).flatMap TypeAccess.placedHints).Perm
      (entries.flatMap HintEntry.placedHints) := by
  rw [reflectionOf, foldl_addEntry]
  refine (flatMap_putAll_perm TypeAccess.placedHints_absorb _).trans ?_
  induction entries with
  | nil =>
      exact List.Perm.refl _
  | cons entry entries inductionHypothesis =>
      rw [List.flatMap_cons]
      cases place : entry.place? with
      | none =>
          have made : element? entry = none := by rw [element?_eq, place, Option.map_none]
          rw [List.filterMap_cons_none made, HintEntry.placedHints, place]
          exact inductionHypothesis
      | some known =>
          have made : element? entry =
              some ((TypeAccess.empty known.1 known.2).addMembers entry.members) := by
            rw [element?_eq, place, Option.map_some]
          rw [List.filterMap_cons_some made, List.flatMap_cons]
          refine List.Perm.append ?_ inductionHypothesis
          rw [HintEntry.placedHints, place, TypeAccess.placedHints, TypeAccess.key_addMembers]
          exact (TypeAccess.hints_addMembers known.1 known.2 entry.members).map _

end NativeConfiguration

def HintRegistry.withoutResources (registry : HintRegistry) : HintRegistry :=
  ofEntries (registry.entries.filter fun entry => entry.kind ≠ .loadResource)

def HintRegistry.fileNames (registry : HintRegistry) : List String :=
  let covers (kinds : AccessKind → Bool) : Bool :=
    registry.entries.any fun entry => kinds entry.kind
  (if covers AccessKind.isReflection then ["reflect-config.json"] else []) ++
    (if covers (· == .loadResource) then ["resource-config.json"] else []) ++
    (if covers (· == .proxy) then ["proxy-config.json"] else []) ++
    (if covers (· == .serialize) then ["serialization-config.json"] else [])

/-- The kind of an entry says what its subject is. -/
theorem HintEntry.Proper.exists_subject {entry : HintEntry} (proper : entry.Proper) :
    match entry.kind with
    | .loadResource => ∃ pattern, entry.subject = .resource pattern
    | .proxy => ∃ interfaces, entry.subject = .proxy interfaces
    | _ => ∃ type, entry.subject = .type type := by
  cases proper with
  | reflection type kind hints condition filled distinct ofKind =>
      have reflective := isReflection_of_kinds filled ofKind
      cases kind with
      | construct | invokeMethod | readField =>
          exact ⟨type, rfl⟩
      | loadResource | proxy | serialize =>
          cases reflective
  | resource pattern condition =>
      exact ⟨pattern, rfl⟩
  | proxy interfaces condition =>
      exact ⟨interfaces, rfl⟩
  | serialization type condition =>
      exact ⟨type, rfl⟩

namespace HintEntry

theorem place?_eq_some_iff (entry : HintEntry) (place : HintPlace) :
    entry.place? = some place ↔
      entry.kind.isReflection = true ∧ entry.subject = .type place.1 ∧
        entry.condition = place.2 := by
  obtain ⟨type, condition⟩ := place
  unfold place?
  cases entry.kind.isReflection <;> cases entry.subject <;> simp

theorem mem_placedHints (entry : HintEntry) (place : HintPlace) (hint : MemberHint) :
    (place, hint) ∈ entry.placedHints ↔ entry.place? = some place ∧ hint ∈ entry.members := by
  rw [placedHints]
  cases entry.place? with
  | none =>
      simp
  | some known =>
      simp [and_comm]

namespace Proper

variable {entry : HintEntry} (proper : entry.Proper)
include proper

theorem exists_place? (reflective : entry.kind.isReflection = true) :
    ∃ place, entry.place? = some place := by
  have isType : ∃ type, entry.subject = .type type := by
    have subject := proper.exists_subject
    cases kind : entry.kind <;> rw [kind] at subject reflective <;>
      first | exact subject | cases reflective
  obtain ⟨type, subject⟩ := isType
  exact ⟨(type, entry.condition), (entry.place?_eq_some_iff _).2 ⟨reflective, subject, rfl⟩⟩

theorem nodup_members : (entry.members.map MemberHint.member).Nodup := by
  cases proper with
  | reflection type kind hints condition filled distinct ofKind =>
      exact distinct
  | resource | proxy | serialization =>
      exact List.nodup_nil

theorem kind_of_mem {hint : MemberHint} (member : hint ∈ entry.members) :
    hint.member.kind = entry.kind := by
  cases proper with
  | reflection type kind hints condition filled distinct ofKind =>
      exact ofKind hint member
  | resource | proxy | serialization =>
      cases member

/-- A member is listed by the entry of its type and kind only. -/
theorem key_of_mem_placedHints {place : HintPlace} {hint : MemberHint}
    (placed : (place, hint) ∈ entry.placedHints) :
    entry.key = (.type place.1, hint.member.kind) := by
  obtain ⟨ofEntry, member⟩ := (entry.mem_placedHints place hint).1 placed
  obtain ⟨-, subject, -⟩ := (entry.place?_eq_some_iff place).1 ofEntry
  rw [key, subject, proper.kind_of_mem member]

theorem nodup_placedHints :
    (entry.placedHints.map fun (place, hint) => (place.1, hint.member)).Nodup := by
  rw [placedHints]
  cases entry.place? with
  | none =>
      exact List.nodup_nil
  | some place =>
      have members := proper.nodup_members.map (Prod.mk_right_injective place.1)
      rw [List.map_map] at members
      rw [Option.elim_some, List.map_map]
      exact members

end Proper

end HintEntry

theorem HintRegistry.mem_ofKind {registry : HintRegistry} {kind : AccessKind}
    {entry : HintEntry} :
    entry ∈ registry.ofKind kind ↔ entry ∈ registry.entries ∧ entry.kind = kind := by
  rw [ofKind, List.mem_filter, beq_iff_eq]

namespace NativeConfiguration

/-- A list made of one subject for each entry has the subjects and conditions of the
entries, in order. -/
theorem map_filterMap_subjects {α : Type} {subject? : HintEntry → Option (Conditioned α)}
    {subject : α → Subject} {entries : List HintEntry}
    (each : ∀ entry ∈ entries, ∃ own,
      subject? entry = some ⟨entry.condition, own⟩ ∧ entry.subject = subject own) :
    ((entries.filterMap subject?).map fun listed => (subject listed.subject, listed.condition)) =
      entries.map fun entry => (entry.subject, entry.condition) := by
  induction entries with
  | nil =>
      rfl
  | cons entry entries inductionHypothesis =>
      obtain ⟨⟨own, made, ownSubject⟩, later⟩ := List.forall_mem_cons.1 each
      rw [List.filterMap_cons_some made, List.map_cons, inductionHypothesis later,
        List.map_cons, ownSubject]

section Listed

variable {registry : HintRegistry} (proper : registry.Proper)
include proper

theorem subjects_ofKind {α : Type} {kind : AccessKind}
    {subject? : HintEntry → Option (Conditioned α)} {subject : α → Subject}
    (ofKind : ∀ entry : HintEntry, entry.Proper → entry.kind = kind →
      ∃ own, entry.subject = subject own)
    (listed : ∀ entry own, entry.subject = subject own →
      subject? entry = some ⟨entry.condition, own⟩) :
    (((registry.ofKind kind).filterMap subject?).map fun listed =>
        (subject listed.subject, listed.condition)) =
      (registry.ofKind kind).map fun entry => (entry.subject, entry.condition) := by
  apply map_filterMap_subjects
  intro entry member
  obtain ⟨entryMember, isKind⟩ := HintRegistry.mem_ofKind.1 member
  obtain ⟨own, ownSubject⟩ := ofKind entry (proper.entries entry entryMember) isKind
  exact ⟨own, listed entry own ownSubject, ownSubject⟩

theorem subjects_resources :
    ((ofRegistry registry).resources.map fun listed =>
        (Subject.resource listed.subject, listed.condition)) =
      (registry.ofKind .loadResource).map fun entry => (entry.subject, entry.condition) := by
  refine subjects_ofKind proper ?_ ?_
  · intro entry entryProper kind
    have subject := entryProper.exists_subject
    rwa [kind] at subject
  · intro entry pattern subject
    rw [resource?, subject]

theorem subjects_proxies :
    ((ofRegistry registry).proxies.map fun listed =>
        (Subject.proxy listed.subject, listed.condition)) =
      (registry.ofKind .proxy).map fun entry => (entry.subject, entry.condition) := by
  refine subjects_ofKind proper ?_ ?_
  · intro entry entryProper kind
    have subject := entryProper.exists_subject
    rwa [kind] at subject
  · intro entry interfaces subject
    rw [proxy?, subject]

theorem subjects_serialization :
    ((ofRegistry registry).serialization.map fun listed =>
        (Subject.type listed.subject, listed.condition)) =
      (registry.ofKind .serialize).map fun entry => (entry.subject, entry.condition) := by
  refine subjects_ofKind proper ?_ ?_
  · intro entry entryProper kind
    have subject := entryProper.exists_subject
    rwa [kind] at subject
  · intro entry type subject
    rw [serialized?, subject]

omit proper in
theorem isEmpty_of_subjects {α : Type} {listed : List α} {ofOne : α → Subject × Option TypeName}
    {kind : AccessKind}
    (subjects : listed.map ofOne =
      (registry.ofKind kind).map fun entry => (entry.subject, entry.condition)) :
    (!listed.isEmpty) = registry.entries.any fun entry => entry.kind == kind := by
  have sameEmpty := congrArg List.isEmpty subjects
  rw [List.isEmpty_map, List.isEmpty_map] at sameEmpty
  rw [sameEmpty, HintRegistry.ofKind, Bool.eq_iff_iff]
  simp

end Listed

theorem isEmpty_reflection {registry : HintRegistry} (proper : registry.Proper) :
    (!(ofRegistry registry).reflection.isEmpty) =
      registry.entries.any fun entry => entry.kind.isReflection := by
  have places : (ofRegistry registry).reflection.map TypeAccess.key = _ :=
    keys_reflectionOf registry.entries
  rw [Bool.eq_iff_iff, List.any_eq_true, Bool.not_eq_true', List.isEmpty_eq_false_iff,
    ne_eq, ← List.map_eq_nil_iff, places, List.eq_nil_iff_forall_not_mem]
  simp only [List.mem_eraseDups, List.mem_filterMap, not_forall, not_not]
  constructor
  · rintro ⟨place, entry, member, ofEntry⟩
    exact ⟨entry, member, ((entry.place?_eq_some_iff place).1 ofEntry).1⟩
  · rintro ⟨entry, member, reflective⟩
    obtain ⟨place, ofEntry⟩ := (proper.entries entry member).exists_place? reflective
    exact ⟨place, entry, member, ofEntry⟩

theorem names_files {registry : HintRegistry} (proper : registry.Proper) :
    (ofRegistry registry).files.map ConfigurationFile.name = registry.fileNames := by
  have name : ∀ text holds document, (file text holds document).map ConfigurationFile.name =
      if holds then [text] else [] := by
    intro text holds document
    cases holds <;> rfl
  simp only [files, List.map_append, name, HintRegistry.fileNames, isEmpty_reflection proper,
    isEmpty_of_subjects (subjects_resources proper), isEmpty_of_subjects (subjects_proxies proper),
    isEmpty_of_subjects (subjects_serialization proper)]

/-! ## Hints listed once -/

def placedHints (configuration : NativeConfiguration) : List (HintPlace × MemberHint) :=
  configuration.reflection.flatMap TypeAccess.placedHints

/-- No member of a type is listed twice. -/
theorem nodup_placedHints {registry : HintRegistry} (proper : registry.Proper) :
    ((ofRegistry registry).placedHints.map fun (place, hint) =>
      (place.1, hint.member)).Nodup := by
  have same := placedHints_reflectionOf registry.entries
  refine (same.map _).nodup_iff.2 ?_
  rw [List.map_flatMap, List.nodup_flatMap]
  refine ⟨fun entry member => (proper.entries entry member).nodup_placedHints, ?_⟩
  have distinct := List.pairwise_map.1 proper.keys
  refine distinct.imp_of_mem ?_
  intro first second firstMember secondMember otherKey used inFirst inSecond
  obtain ⟨⟨firstPlace, firstHint⟩, firstPlaced, rfl⟩ := List.mem_map.1 inFirst
  obtain ⟨⟨secondPlace, secondHint⟩, secondPlaced, same⟩ := List.mem_map.1 inSecond
  obtain ⟨sameType, sameMember⟩ := Prod.mk.inj same
  apply otherKey
  rw [(proper.entries first firstMember).key_of_mem_placedHints firstPlaced,
    (proper.entries second secondMember).key_of_mem_placedHints secondPlaced, sameType,
    sameMember]

def registrations (configuration : NativeConfiguration) : List Registration :=
  (configuration.placedHints.map fun ((type, condition), hint) =>
      .reflection type hint.member hint.mode condition) ++
    (configuration.proxies.map fun listed => .proxy listed.subject listed.condition) ++
    configuration.serialization.map fun listed =>
      .serialization listed.subject listed.condition

end NativeConfiguration

/-- What an entry has to be registered again for: its hints, or its subject. -/
theorem HintEntry.Proper.mem_registrations_iff {entry : HintEntry} (proper : entry.Proper)
    (registration : Registration) :
    (entry.kind ≠ .loadResource ∧ registration ∈ entry.registrations) ↔
      (∃ place hint, (place, hint) ∈ entry.placedHints ∧
          Registration.reflection place.1 hint.member hint.mode place.2 = registration) ∨
        (entry.kind = .proxy ∧ ∃ listed, NativeConfiguration.proxy? entry = some listed ∧
          Registration.proxy listed.subject listed.condition = registration) ∨
        (entry.kind = .serialize ∧ ∃ listed, NativeConfiguration.serialized? entry = some listed ∧
          Registration.serialization listed.subject listed.condition = registration) := by
  cases proper with
  | reflection type kind hints condition filled distinct ofKind =>
      have reflective := isReflection_of_kinds filled ofKind
      have other : ∀ otherKind : AccessKind, otherKind.isReflection = false → kind ≠ otherKind := by
        rintro otherKind notReflective rfl
        rw [reflective] at notReflective
        cases notReflective
      have ofEntry := fun place => place?_eq_some_iff ⟨.type type, kind, hints, condition⟩ place
      simp only [reflective, Subject.type.injEq, true_and] at ofEntry
      simp only [registrations_of_reflection reflective, mem_placedHints, ofEntry, List.mem_map,
        other .loadResource rfl, other .proxy rfl, other .serialize rfl, ne_eq, not_false_eq_true,
        true_and, false_and, or_false, Prod.exists]
      constructor
      · rintro ⟨hint, member, rfl⟩
        exact ⟨type, condition, hint, ⟨⟨rfl, rfl⟩, member⟩, rfl⟩
      · rintro ⟨_, _, hint, ⟨⟨rfl, rfl⟩, member⟩, rfl⟩
        exact ⟨hint, member, rfl⟩
  | resource pattern condition =>
      simp [mem_placedHints]
  | proxy interfaces condition =>
      simp [mem_placedHints, registrations, NativeConfiguration.proxy?, eq_comm]
  | serialization type condition =>
      simp [mem_placedHints, registrations, NativeConfiguration.serialized?, eq_comm,
        AccessKind.isReflection]

namespace NativeConfiguration

theorem mem_registrations_iff {registry : HintRegistry} (proper : registry.Proper)
    (registration : Registration) :
    registration ∈ (ofRegistry registry).registrations ↔
      registration ∈ registry.withoutResources.entries.flatMap HintEntry.registrations := by
  have placed : ∀ place hint, (place, hint) ∈ (ofRegistry registry).placedHints ↔
      ∃ entry ∈ registry.entries, (place, hint) ∈ entry.placedHints := by
    intro place hint
    rw [← List.mem_flatMap]
    exact (placedHints_reflectionOf registry.entries).mem_iff
  have ofEntries :
      registration ∈ registry.withoutResources.entries.flatMap HintEntry.registrations ↔
        ∃ entry ∈ registry.entries,
          entry.kind ≠ .loadResource ∧ registration ∈ entry.registrations := by
    simp only [HintRegistry.withoutResources, HintRegistry.ofEntries, List.mem_flatMap,
      List.mem_filter, decide_eq_true_eq, and_assoc]
  rw [ofEntries]
  simp only [registrations, List.mem_append, List.mem_map, Prod.exists, placed]
  simp only [ofRegistry, List.mem_filterMap, HintRegistry.mem_ofKind]
  constructor
  · rintro ((⟨type, condition, hint, ⟨entry, member, hintPlaced⟩, rfl⟩ |
      ⟨listed, ⟨entry, ⟨member, kind⟩, made⟩, rfl⟩) | ⟨listed, ⟨entry, ⟨member, kind⟩, made⟩, rfl⟩)
    · refine ⟨entry, member, ((proper.entries entry member).mem_registrations_iff _).2 (.inl ?_)⟩
      exact ⟨_, hint, hintPlaced, rfl⟩
    · refine ⟨entry, member, ((proper.entries entry member).mem_registrations_iff _).2 ?_⟩
      exact .inr (.inl ⟨kind, listed, made, rfl⟩)
    · refine ⟨entry, member, ((proper.entries entry member).mem_registrations_iff _).2 ?_⟩
      exact .inr (.inr ⟨kind, listed, made, rfl⟩)
  · rintro ⟨entry, member, own⟩
    rcases ((proper.entries entry member).mem_registrations_iff _).1 own with
      ⟨place, hint, hintPlaced, rfl⟩ | ⟨kind, listed, made, rfl⟩ | ⟨kind, listed, made, rfl⟩
    · exact .inl (.inl ⟨_, _, hint, ⟨entry, member, hintPlaced⟩, rfl⟩)
    · exact .inl (.inr ⟨listed, ⟨entry, ⟨member, kind⟩, made⟩, rfl⟩)
    · exact .inr ⟨listed, ⟨entry, ⟨member, kind⟩, made⟩, rfl⟩

end NativeConfiguration

/-- Whether a configuration says what a registry says.  A resource pattern stands in it
as a regular expression, from which the pattern cannot be told; everything else can be
recovered. -/
structure NativeConfiguration.Represents (configuration : NativeConfiguration)
    (registry : HintRegistry) : Prop where
  places : configuration.reflection.map TypeAccess.key =
    (registry.entries.filterMap HintEntry.place?).eraseDups
  distinctPlaces : (configuration.reflection.map TypeAccess.key).Nodup
  hints : configuration.placedHints.Perm (registry.entries.flatMap HintEntry.placedHints)
  distinctMembers :
    (configuration.placedHints.map fun (place, hint) => (place.1, hint.member)).Nodup
  resources : ∃ patterns : List (Conditioned String),
    (patterns.map fun listed => (Subject.resource listed.subject, listed.condition)) =
        (registry.ofKind .loadResource).map (fun entry => (entry.subject, entry.condition)) ∧
      configuration.resources = patterns.map fun listed =>
        ⟨listed.condition, ResourcePattern.toRegex listed.subject⟩
  proxies :
    (configuration.proxies.map fun listed => (Subject.proxy listed.subject, listed.condition)) =
      (registry.ofKind .proxy).map fun entry => (entry.subject, entry.condition)
  serialization :
    (configuration.serialization.map fun listed =>
        (Subject.type listed.subject, listed.condition)) =
      (registry.ofKind .serialize).map fun entry => (entry.subject, entry.condition)
  recovered : (HintRegistry.empty.registerAll configuration.registrations).SameUpToOrder
    registry.withoutResources

namespace HintRegistry

theorem Proper.withoutResources {registry : HintRegistry} (proper : registry.Proper) :
    registry.withoutResources.Proper where
  keys := proper.keys.sublist (List.filter_sublist.map HintEntry.key)
  entries entry member := proper.entries entry (List.mem_of_mem_filter member)

theorem represents_withRegexes {registry : HintRegistry} (proper : registry.Proper) :
    (NativeConfiguration.ofRegistry registry).withRegexes.Represents registry where
  places := NativeConfiguration.keys_reflectionOf registry.entries
  distinctPlaces := NativeConfiguration.nodup_keys_reflectionOf registry.entries
  hints := NativeConfiguration.placedHints_reflectionOf registry.entries
  distinctMembers := NativeConfiguration.nodup_placedHints proper
  resources := ⟨_, NativeConfiguration.subjects_resources proper, rfl⟩
  proxies := NativeConfiguration.subjects_proxies proper
  serialization := NativeConfiguration.subjects_serialization proper
  recovered := by
    have same := sameUpToOrder_of_same_registrations
      (NativeConfiguration.mem_registrations_iff proper)
    rwa [proper.withoutResources.registerAll_registrations] at same

/-- The files of a registry that can be reached are those that it has something for, in
order, and what is read from them says what the registry says. -/
theorem files_represent_registry {registry : HintRegistry} (reachable : registry.Reachable) :
    (NativeConfiguration.ofRegistry registry).files.map ConfigurationFile.name =
        registry.fileNames ∧
      ∃ configuration,
        NativeConfiguration.read? (NativeConfiguration.ofRegistry registry).files =
            some configuration ∧
          configuration.Represents registry := by
  have proper := reachable.proper
  refine ⟨NativeConfiguration.names_files proper, _, NativeConfiguration.read?_files _, ?_⟩
  exact represents_withRegexes proper

theorem cacheRegistrations_files_represent :
    let registry := empty.registerAll cacheRegistrations
    (NativeConfiguration.ofRegistry registry).files.map ConfigurationFile.name =
        ["reflect-config.json", "resource-config.json", "serialization-config.json"] ∧
      ∃ configuration,
        NativeConfiguration.read? (NativeConfiguration.ofRegistry registry).files =
            some configuration ∧
          configuration.Represents registry := by
  intro registry
  have reachable : registry.Reachable := Reachable.empty.registerAll cacheRegistrations
  obtain ⟨names, represented⟩ := files_represent_registry reachable
  refine ⟨names.trans ?_, represented⟩
  decide

end HintRegistry

end AheadOfTime
