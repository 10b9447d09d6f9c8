import Mathlib.Data.List.Nodup
import AheadOfTime.Hint.Configuration
import AheadOfTime.Proofs.Hint.Registry
import AheadOfTime.Proofs.TypeName

/-!
# What the reflection file lists

The reflection file has one element for each type and condition, and the element lists
every member that an entry of the registry lets be invoked.
-/

namespace AheadOfTime

open Keyed

namespace TypeAccess

/-- What there is one element for: a type and a condition. -/
def key (access : TypeAccess) : TypeName × Option TypeName :=
  (access.name, access.condition)

/-- An element with the members of another one. -/
def absorb (access incoming : TypeAccess) : TypeAccess :=
  { access with
    fields := access.fields ++ incoming.fields
    methods := access.methods ++ incoming.methods
    queriedMethods := access.queriedMethods ++ incoming.queriedMethods }

theorem lawful_absorb : Lawful key absorb where
  key_combine _ _ := rfl
  assoc _ _ _ := by simp only [absorb, List.append_assoc]

/-- Adding a member to an element is absorbing an element with that member. -/
theorem addMember_eq_absorb (access : TypeAccess) (hint : MemberHint) (name : TypeName)
    (condition : Option TypeName) :
    access.addMember hint = access.absorb ((empty name condition).addMember hint) := by
  unfold addMember absorb empty
  cases hint.member.parameters with
  | none =>
      simp
  | some parameters =>
      cases hint.mode <;> simp

theorem addMembers_eq_absorb (access : TypeAccess) (hints : List MemberHint)
    (name : TypeName) (condition : Option TypeName) :
    access.addMembers hints = access.absorb ((empty name condition).addMembers hints) := by
  induction hints using List.reverseRecOn with
  | nil =>
      simp [addMembers, absorb, empty]
  | append_singleton hints last inductionHypothesis =>
      simp only [addMembers, List.foldl_append, List.foldl_cons, List.foldl_nil] at *
      rw [addMember_eq_absorb _ last name condition, inductionHypothesis,
        addMember_eq_absorb (List.foldl addMember (empty name condition) hints) last name
          condition, lawful_absorb.assoc]

theorem key_addMembers (access : TypeAccess) (hints : List MemberHint) :
    (access.addMembers hints).key = access.key := by
  rw [addMembers_eq_absorb access hints access.name access.condition]
  rfl

end TypeAccess

namespace NativeConfiguration

theorem addHint_eq_put (type : TypeName) (condition : Option TypeName)
    (members : List MemberHint) (elements : List TypeAccess) :
    addHint type condition members elements =
      put TypeAccess.key TypeAccess.absorb
        ((TypeAccess.empty type condition).addMembers members) elements := by
  induction elements with
  | nil =>
      rfl
  | cons access rest inductionHypothesis =>
      have sameKey :
          (access.key = ((TypeAccess.empty type condition).addMembers members).key) ↔
            (access.name = type ∧ access.condition = condition) := by
        rw [TypeAccess.key_addMembers]
        exact iff_of_eq (Prod.mk.injEq ..)
      rw [addHint, put, inductionHypothesis]
      by_cases same : access.name = type ∧ access.condition = condition
      · rw [if_pos same, if_pos (sameKey.2 same),
          TypeAccess.addMembers_eq_absorb access members type condition]
      · rw [if_neg same, if_neg fun equal => same (sameKey.1 equal)]

/-- The element that an entry alone makes, if it is about reflection. -/
def element? (entry : HintEntry) : Option TypeAccess :=
  match entry.kind.isReflection, entry.subject with
  | true, .type type =>
      some ((TypeAccess.empty type entry.condition).addMembers entry.members)
  | _, _ => none

theorem addEntry_eq (elements : List TypeAccess) (entry : HintEntry) :
    addEntry elements entry =
      (element? entry).elim elements fun element =>
        put TypeAccess.key TypeAccess.absorb element elements := by
  unfold addEntry element?
  cases entry.kind.isReflection with
  | false =>
      rfl
  | true =>
      cases entry.subject with
      | type type =>
          exact addHint_eq_put type entry.condition entry.members elements
      | resource pattern =>
          rfl
      | proxy interfaces =>
          rfl

theorem foldl_addEntry (entries : List HintEntry) (elements : List TypeAccess) :
    entries.foldl addEntry elements =
      putAll TypeAccess.key TypeAccess.absorb elements (entries.filterMap element?) := by
  induction entries generalizing elements with
  | nil =>
      rfl
  | cons entry entries inductionHypothesis =>
      rw [List.foldl_cons, inductionHypothesis, addEntry_eq]
      cases made : element? entry with
      | none =>
          rw [List.filterMap_cons_none made]
          rfl
      | some element =>
          rw [List.filterMap_cons_some made, putAll_cons]
          rfl

theorem nodup_keys_reflectionOf (entries : List HintEntry) :
    ((reflectionOf entries).map TypeAccess.key).Nodup := by
  rw [reflectionOf, foldl_addEntry]
  exact nodup_keys_putAll TypeAccess.lawful_absorb _ List.nodup_nil

end NativeConfiguration

/-! ## Documents -/

namespace Document

def value? (document : Document) (key : String) : Option Document :=
  match document with
  | .mapping entries => entries.lookup key
  | _ => none

/-- Whether a document is the element of a type under a condition. -/
structure IsElementOf (document : Document) (type : TypeName) (condition : Option TypeName) :
    Prop where
  name : document.value? "name" = some (.text type.canonical)
  condition :
    document.value? "condition" =
      condition.map fun needed => .mapping [("typeReachable", .text needed.canonical)]

end Document

namespace NativeConfiguration

theorem lookup_conditionEntry (condition : Option TypeName) (key : String) :
    (conditionEntry condition).lookup key =
      if key = "condition" then
        condition.map fun needed => .mapping [("typeReachable", .text needed.canonical)]
      else
        none := by
  cases condition with
  | none =>
      simp [conditionEntry]
  | some needed =>
      by_cases same : key = "condition"
      · simp [conditionEntry, same]
      · have different : (key == "condition") = false := by simpa using same
        simp [conditionEntry, List.lookup_cons, same, different]

theorem lookup_listEntry (key : String) (items : List Document) (wanted : String) :
    (listEntry key items).lookup wanted =
      if wanted = key ∧ items ≠ [] then some (.sequence items) else none := by
  cases items with
  | nil =>
      simp [listEntry]
  | cons first rest =>
      by_cases same : wanted = key
      · simp [listEntry, same]
      · have different : (wanted == key) = false := by simpa using same
        simp [listEntry, List.lookup_cons, same, different]

theorem value?_typeDocument (access : TypeAccess) {key : String} (other : key ≠ "name") :
    (typeDocument access).value? key =
      (((((conditionEntry access.condition).lookup key).or
        ((listEntry "fields" (access.fields.map fieldDocument)).lookup key)).or
        ((listEntry "methods" (access.methods.map methodDocument)).lookup key)).or
        ((listEntry "queriedMethods" (access.queriedMethods.map methodDocument)).lookup key)) := by
  have different : (key == "name") = false := by simpa using other
  simp only [typeDocument, Document.value?, List.cons_append, List.lookup_cons, different,
    List.lookup_append]

theorem isElementOf_typeDocument (access : TypeAccess) :
    (typeDocument access).IsElementOf access.name access.condition where
  name := rfl
  condition := by
    rw [value?_typeDocument access (by decide)]
    simp [lookup_conditionEntry, lookup_listEntry]

end NativeConfiguration

theorem Member.kind_isReflection (member : Member) : member.kind.isReflection = true := by
  unfold kind
  split
  · rfl
  · split <;> rfl

end AheadOfTime
