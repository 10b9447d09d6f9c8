import AheadOfTime.Hint.Basic

/-!
# The hint registry

A registry keeps one entry for each subject and kind of access, in the order of
their first registration, and an index that tells where the entry for a pair
stands.  A registration of a known pair adds its members to the entry, the
stronger mode winning, and weakens the condition: two different conditions, or
one registration without a condition, leave none.
-/

namespace AheadOfTime

/-- The condition that two registrations together still need. -/
def weakerCondition (known incoming : Option TypeName) : Option TypeName :=
  if known = incoming then known else none

def addMember (incoming : MemberHint) : List MemberHint → List MemberHint
  | [] => [incoming]
  | hint :: rest =>
      if hint.member = incoming.member then
        ⟨hint.member, hint.mode.strongest incoming.mode⟩ :: rest
      else
        hint :: addMember incoming rest

/-- Members after several more were registered in turn. -/
def addMembers (known incoming : List MemberHint) : List MemberHint :=
  incoming.foldl (fun members hint => addMember hint members) known

namespace HintEntry

/-- What there is one entry for: a subject and a kind of access. -/
def key (entry : HintEntry) : Subject × AccessKind :=
  (entry.subject, entry.kind)

/-- What two entries for the same subject and kind say together. -/
def absorb (entry incoming : HintEntry) : HintEntry :=
  { entry with
    members := addMembers entry.members incoming.members
    condition := weakerCondition entry.condition incoming.condition }

end HintEntry

/-- One registration: what code asks to keep. -/
inductive Registration where
  | reflection (type : TypeName) (member : Member) (mode : Mode) (condition : Option TypeName)
  | resource (pattern : String) (condition : Option TypeName)
  | proxy (interfaces : List TypeName) (condition : Option TypeName)
  | serialization (type : TypeName) (condition : Option TypeName)
  deriving DecidableEq

namespace Registration

def entry : Registration → HintEntry
  | reflection type member mode condition =>
      ⟨.type type, member.kind, [⟨member, mode⟩], condition⟩
  | resource pattern condition =>
      ⟨.resource pattern, .loadResource, [], condition⟩
  | proxy interfaces condition =>
      ⟨.proxy interfaces, .proxy, [], condition⟩
  | serialization type condition =>
      ⟨.type type, .serialize, [], condition⟩

end Registration

namespace HintEntry

def positions (entries : List HintEntry) : List ((Subject × AccessKind) × Nat) :=
  (entries.map key).zipIdx

/-- Entries keep their positions when one of them takes up another. -/
theorem positions_modify (entries : List HintEntry) (position : Nat) (incoming : HintEntry) :
    positions (entries.modify position fun entry => entry.absorb incoming) =
      positions entries := by
  have keys : (entries.modify position fun entry => entry.absorb incoming).map key =
      entries.map key := by
    apply List.ext_getElem?
    intro other
    rw [List.getElem?_map, List.getElem?_map, List.getElem?_modify, Option.map_eq_map,
      Option.map_map]
    congr 1
    funext entry
    by_cases here : position = other
    · rw [Function.comp_apply, if_pos here]
      rfl
    · rw [Function.comp_apply, if_neg here]
  rw [positions, keys, positions]

theorem positions_concat (entries : List HintEntry) (incoming : HintEntry) :
    positions (entries ++ [incoming]) =
      positions entries ++ [(incoming.key, entries.length)] := by
  rw [positions, List.map_append, List.zipIdx_append, List.length_map, Nat.zero_add]
  rfl

end HintEntry

/-- The entries of all hints, in the order of their first registration, and the index
of their positions. -/
structure HintRegistry where
  entries : List HintEntry
  index : List ((Subject × AccessKind) × Nat)
  indexed : index = HintEntry.positions entries
  deriving DecidableEq

namespace HintRegistry

def ofEntries (entries : List HintEntry) : HintRegistry :=
  ⟨entries, HintEntry.positions entries, rfl⟩

def empty : HintRegistry :=
  ofEntries []

def size (registry : HintRegistry) : Nat :=
  registry.entries.length

def isEmpty (registry : HintRegistry) : Bool :=
  registry.entries.isEmpty

def get? (registry : HintRegistry) (subject : Subject) (kind : AccessKind) :
    Option HintEntry :=
  match registry.index.lookup (subject, kind) with
  | none => none
  | some position => registry.entries[position]?

/-- The entries of one kind of access, in order. -/
def ofKind (registry : HintRegistry) (kind : AccessKind) : List HintEntry :=
  registry.entries.filter fun entry => entry.kind == kind

def absorbAt (registry : HintRegistry) (position : Nat) (incoming : HintEntry) :
    HintRegistry where
  entries := registry.entries.modify position fun entry => entry.absorb incoming
  index := registry.index
  indexed := registry.indexed.trans
    (HintEntry.positions_modify registry.entries position incoming).symm

def push (registry : HintRegistry) (incoming : HintEntry) : HintRegistry where
  entries := registry.entries ++ [incoming]
  index := registry.index ++ [(incoming.key, registry.size)]
  indexed := by
    rw [registry.indexed, HintEntry.positions_concat]
    rfl

/-- The registry after one more entry was put into it: into the entry for the same
subject and kind, or else at the end. -/
def insert (registry : HintRegistry) (incoming : HintEntry) : HintRegistry :=
  match registry.index.lookup incoming.key with
  | some position => registry.absorbAt position incoming
  | none => registry.push incoming

def register (registry : HintRegistry) (registration : Registration) : HintRegistry :=
  registry.insert registration.entry

def registerAll (registry : HintRegistry) (registrations : List Registration) :
    HintRegistry :=
  registrations.foldl register registry

/-- The registry after every entry of `other`, in the order of `other`. -/
def merge (registry other : HintRegistry) : HintRegistry :=
  other.entries.foldl insert registry

end HintRegistry

end AheadOfTime
