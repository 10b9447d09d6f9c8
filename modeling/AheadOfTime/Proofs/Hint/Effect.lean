import AheadOfTime.Proofs.Hint.Entries

/-!
# Hints that are in effect

A hint is in effect when the entry for its subject and kind of access says at least what
the hint says: it allows the member of the hint in its mode, whenever the condition of
the hint holds.  A registration puts a hint into effect, and none that follows takes it
out of effect again.
-/

namespace AheadOfTime

/-- Whether a mode allows all that another one allows. -/
def Mode.Suffices (mode required : Mode) : Prop :=
  mode = .invoke ∨ required = .introspect

theorem Mode.suffices_refl (mode : Mode) : mode.Suffices mode := by
  cases mode with
  | introspect =>
      exact Or.inr rfl
  | invoke =>
      exact Or.inl rfl

theorem Mode.Suffices.strongest {mode incoming required : Mode}
    (allowed : mode.Suffices required ∨ incoming.Suffices required) :
    (mode.strongest incoming).Suffices required := by
  rw [Suffices, strongest_eq_invoke_iff]
  rcases allowed with (strong | weak) | (strong | weak)
  · exact Or.inl (Or.inl strong)
  · exact Or.inr weak
  · exact Or.inl (Or.inr strong)
  · exact Or.inr weak

/-- The condition that is left of two is none, or both of them. -/
theorem weakerCondition_cases (known incoming : Option TypeName) :
    weakerCondition known incoming = none ∨
      weakerCondition known incoming = known ∧ known = incoming := by
  by_cases same : known = incoming
  · exact Or.inr ⟨if_pos same, same⟩
  · exact Or.inl (if_neg same)

/-- Whether members are allowed as a hint asks. -/
def AllowsHint (members : List MemberHint) (hint : MemberHint) : Prop :=
  ∃ mode, modeIn members hint.member = some mode ∧ mode.Suffices hint.mode

theorem allowsHint_addMember_self (hint : MemberHint) (members : List MemberHint) :
    AllowsHint (addMember hint members) hint := by
  refine ⟨_, by rw [modeIn_addMember, if_pos rfl], ?_⟩
  cases modeIn members hint.member with
  | none =>
      exact hint.mode.suffices_refl
  | some mode =>
      exact .strongest (Or.inr hint.mode.suffices_refl)

theorem AllowsHint.addMember {members : List MemberHint} {hint : MemberHint}
    (allowed : AllowsHint members hint) (incoming : MemberHint) :
    AllowsHint (addMember incoming members) hint := by
  obtain ⟨mode, found, sufficient⟩ := allowed
  by_cases same : incoming.member = hint.member
  · refine ⟨mode.strongest incoming.mode, ?_, .strongest (Or.inl sufficient)⟩
    rw [modeIn_addMember, if_pos same, found]
    rfl
  · refine ⟨mode, ?_, sufficient⟩
    rw [modeIn_addMember, if_neg same, found]

theorem AllowsHint.addMembers {members : List MemberHint} {hint : MemberHint}
    (allowed : AllowsHint members hint) (incoming : List MemberHint) :
    AllowsHint (addMembers members incoming) hint := by
  induction incoming generalizing members with
  | nil =>
      exact allowed
  | cons first rest inductionHypothesis =>
      exact inductionHypothesis (allowed.addMember first)

namespace HintEntry

/-- What an entry says of a hint that is in effect: it allows the member, if the hint has
one, and holds always or on the condition of the hint. -/
structure Covers (entry : HintEntry) (hint? : Option MemberHint)
    (condition : Option TypeName) : Prop where
  modes : ∀ hint ∈ hint?,
    ∃ mode, entry.modeOf? hint.member = some mode ∧ mode.Suffices hint.mode
  condition : entry.condition = none ∨ entry.condition = condition

theorem modeOf?_eq_modeIn (entry : HintEntry) (member : Member) :
    entry.modeOf? member = modeIn entry.members member := by
  simp only [modeOf?, modeIn, beq_eq_decide]

theorem covers_iff {entry : HintEntry} {hint? : Option MemberHint}
    {condition : Option TypeName} :
    entry.Covers hint? condition ↔
      (∀ hint ∈ hint?, AllowsHint entry.members hint) ∧
        (entry.condition = none ∨ entry.condition = condition) := by
  simp only [AllowsHint, ← modeOf?_eq_modeIn]
  exact ⟨fun covers => ⟨covers.modes, covers.condition⟩, fun both => ⟨both.1, both.2⟩⟩

theorem Covers.absorb {entry : HintEntry} {hint? : Option MemberHint}
    {condition : Option TypeName} (covers : entry.Covers hint? condition)
    (incoming : HintEntry) : (entry.absorb incoming).Covers hint? condition := by
  obtain ⟨allowed, known⟩ := covers_iff.1 covers
  refine covers_iff.2 ⟨fun hint member => (allowed hint member).addMembers _, ?_⟩
  rcases weakerCondition_cases entry.condition incoming.condition with gone | ⟨kept, -⟩
  · exact Or.inl gone
  · change weakerCondition _ _ = none ∨ weakerCondition _ _ = condition
    rwa [kept]

theorem covers_entry (registration : Registration) :
    registration.entry.Covers registration.hint? registration.condition := by
  rw [Registration.entry_eq, covers_iff]
  refine ⟨fun hint given => ?_, Or.inr rfl⟩
  rw [Option.mem_def.1 given]
  exact allowsHint_addMember_self hint []

theorem absorb_covers (entry : HintEntry) (registration : Registration) :
    (entry.absorb registration.entry).Covers registration.hint? registration.condition := by
  rw [Registration.entry_eq, covers_iff]
  refine ⟨fun hint given => ?_, ?_⟩
  · rw [Option.mem_def.1 given]
    exact allowsHint_addMember_self hint entry.members
  · rcases weakerCondition_cases entry.condition registration.condition with gone | kept
    · exact Or.inl gone
    · exact Or.inr (kept.1.trans kept.2)

end HintEntry

namespace HintRegistry

/-- Whether a hint about a subject and a kind of access is in effect. -/
def InEffect (registry : HintRegistry) (subject : Subject) (kind : AccessKind)
    (hint? : Option MemberHint) (condition : Option TypeName) : Prop :=
  ∃ entry, registry.get? subject kind = some entry ∧ entry.Covers hint? condition

variable {registry : HintRegistry} {subject : Subject} {kind : AccessKind}
  {hint? : Option MemberHint} {condition : Option TypeName}

theorem InEffect.insert (inEffect : registry.InEffect subject kind hint? condition)
    (incoming : HintEntry) :
    (registry.insert incoming).InEffect subject kind hint? condition := by
  obtain ⟨entry, found, covers⟩ := inEffect
  rw [InEffect, get?_insert, found]
  by_cases same : incoming.key = (subject, kind)
  · rw [if_pos same]
    exact ⟨entry.absorb incoming, rfl, covers.absorb incoming⟩
  · rw [if_neg same]
    exact ⟨entry, rfl, covers⟩

theorem InEffect.registerAll (inEffect : registry.InEffect subject kind hint? condition)
    (registrations : List Registration) :
    (registry.registerAll registrations).InEffect subject kind hint? condition := by
  induction registrations generalizing registry with
  | nil =>
      exact inEffect
  | cons registration rest inductionHypothesis =>
      exact inductionHypothesis (inEffect.insert registration.entry)

theorem register_inEffect (registry : HintRegistry) (registration : Registration) :
    (registry.register registration).InEffect registration.subject registration.kind
      registration.hint? registration.condition := by
  have here : registration.entry.key = (registration.subject, registration.kind) :=
    registration.key_entry
  rw [InEffect, register, get?_insert, if_pos here]
  refine ⟨_, rfl, ?_⟩
  cases registry.get? registration.subject registration.kind with
  | none =>
      exact HintEntry.covers_entry registration
  | some entry =>
      exact entry.absorb_covers registration

/-- What was registered at any point is in effect in the end. -/
theorem registerAll_inEffect {registration : Registration}
    {registrations : List Registration} (registered : registration ∈ registrations)
    (registry : HintRegistry) :
    (registry.registerAll registrations).InEffect registration.subject registration.kind
      registration.hint? registration.condition := by
  obtain ⟨before, after, rfl⟩ := List.append_of_mem registered
  rw [registerAll_append]
  exact (register_inEffect _ registration).registerAll after

/-- A hint about a member is in effect under the kind of the member only. -/
theorem InEffect.kind_eq (reachable : registry.Reachable) {hint : MemberHint}
    (inEffect : registry.InEffect subject kind (some hint) condition) :
    hint.member.kind = kind := by
  obtain ⟨entry, found, covers⟩ := inEffect
  obtain ⟨mode, allowed, -⟩ := covers.modes hint rfl
  rw [HintEntry.modeOf?, Option.map_eq_some_iff] at allowed
  obtain ⟨known, knownFound, -⟩ := allowed
  have knownMember := List.mem_of_find?_eq_some knownFound
  have sameMember : known.member = hint.member := by simpa using List.find?_some knownFound
  have proper := reachable.proper
  obtain ⟨entryMember, -, sameKind⟩ := (get?_eq_some_iff proper.keys _ _ _).1 found
  rw [← sameMember, ← sameKind]
  cases proper.entries entry entryMember with
  | reflection type kind hints condition filled distinct ofKind =>
      exact ofKind known knownMember
  | resource pattern condition =>
      cases knownMember
  | proxy interfaces condition =>
      cases knownMember
  | serialization type condition =>
      cases knownMember

end HintRegistry

end AheadOfTime
