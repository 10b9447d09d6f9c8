import AheadOfTime.Proofs.Hint.Configuration
import AheadOfTime.Proofs.Json.RoundTrip

/-!
# Configuration files read back

A reader of configuration files gets from the files of a configuration what the
configuration lists.  Only a resource pattern comes back as the regular expression that
the file has in its place.
-/

namespace AheadOfTime

namespace Document

def text? : Document → Option String
  | .text value => some value
  | _ => none

def type? (document : Document) : Option TypeName := do
  (TypeName.parse (← document.text?)).toOption

/-- The items of a sequence, each read the same way. -/
def listOf? {α : Type} (item? : Document → Option α) : Document → Option (List α)
  | .sequence items => items.mapM item?
  | _ => none

/-- The list under a key; one that is left out is empty. -/
def listUnder? {α : Type} (item? : Document → Option α) (document : Document)
    (key : String) : Option (List α) :=
  match document.value? key with
  | none => some []
  | some items => items.listOf? item?

def condition? (document : Document) : Option (Option TypeName) :=
  match document.value? "condition" with
  | none => some none
  | some needed => do
      return some (← (← needed.value? "typeReachable").type?)

def field? (document : Document) : Option FieldAccess := do
  let name ← (← document.value? "name").text?
  match document.value? "allowWrite" with
  | none => return ⟨name, false⟩
  | some (.boolean allowWrite) => return ⟨name, allowWrite⟩
  | some _ => none

def method? (document : Document) : Option MethodAccess := do
  let name ← (← document.value? "name").text?
  let parameters ← (← document.value? "parameterTypes").listOf? type?
  return ⟨name, parameters⟩

def typeAccess? (document : Document) : Option TypeAccess := do
  let name ← (← document.value? "name").type?
  let condition ← document.condition?
  let fields ← document.listUnder? field? "fields"
  let methods ← document.listUnder? method? "methods"
  let queriedMethods ← document.listUnder? method? "queriedMethods"
  return ⟨name, condition, fields, methods, queriedMethods⟩

def conditioned? {α : Type} (key : String) (subject? : Document → Option α)
    (document : Document) : Option (Conditioned α) := do
  let condition ← document.condition?
  let subject ← subject? (← document.value? key)
  return ⟨condition, subject⟩

end Document

namespace NativeConfiguration

/-- The elements that the file of the given name lists; no file lists none. -/
def elements? {α : Type} (files : List ConfigurationFile) (name : String)
    (list? : Document → Option Document) (element? : Document → Option α) :
    Option (List α) :=
  match files.find? fun file => file.name == name with
  | none => some []
  | some file => do
      (← list? (← Json.read? file.contents)).listOf? element?

/-- The list of patterns in a resource file. -/
def includes? (document : Document) : Option Document := do
  (← document.value? "resources").value? "includes"

def read? (files : List ConfigurationFile) : Option NativeConfiguration := do
  let reflection ← elements? files "reflect-config.json" some Document.typeAccess?
  let resources ← elements? files "resource-config.json" includes?
    (Document.conditioned? "pattern" Document.text?)
  let proxies ← elements? files "proxy-config.json" some
    (Document.conditioned? "interfaces" (Document.listOf? Document.type?))
  let serialization ← elements? files "serialization-config.json"
    (fun document => document.value? "types")
    (Document.conditioned? "name" Document.type?)
  return ⟨reflection, resources, proxies, serialization⟩

/-- A configuration with a regular expression in the place of each resource pattern. -/
def withRegexes (configuration : NativeConfiguration) : NativeConfiguration :=
  { configuration with
    resources := configuration.resources.map fun resource =>
      ⟨resource.condition, ResourcePattern.toRegex resource.subject⟩ }

end NativeConfiguration

namespace Document

@[simp]
theorem type?_text (type : TypeName) : type? (.text type.canonical) = some type := by
  simp [type?, text?, TypeName.parse_canonical, Except.toOption]

theorem mapM_map_of_reads {α β γ : Type} {write : α → β} {read? : β → Option γ}
    {result : α → γ} (items : List α) (reads : ∀ item, read? (write item) = some (result item)) :
    (items.map write).mapM read? = some (items.map result) := by
  induction items with
  | nil =>
      rfl
  | cons item items inductionHypothesis =>
      rw [List.map_cons, List.mapM_cons, reads, inductionHypothesis]
      rfl

theorem listOf?_map {α γ : Type} {write : α → Document} {item? : Document → Option γ}
    {result : α → γ} (items : List α) (reads : ∀ item, item? (write item) = some (result item)) :
    listOf? item? (.sequence (items.map write)) = some (items.map result) :=
  mapM_map_of_reads items reads

@[simp]
theorem listOf?_types (types : List TypeName) :
    listOf? type? (.sequence (types.map fun type => .text type.canonical)) = some types := by
  rw [listOf?_map types type?_text, List.map_id']

theorem listUnder?_of_lookup {α : Type} {write : α → Document} {item? : Document → Option α}
    {document : Document} {key : String} {items : List α}
    (lookup : document.value? key =
      if items.map write ≠ [] then some (.sequence (items.map write)) else none)
    (reads : ∀ item, item? (write item) = some item) :
    document.listUnder? item? key = some items := by
  rw [listUnder?, lookup]
  by_cases filled : items.map write ≠ []
  · rw [if_pos filled]
    exact (listOf?_map items reads).trans (congrArg some (List.map_id' items))
  · rw [if_neg filled]
    rw [ne_eq, not_not, List.map_eq_nil_iff] at filled
    rw [filled]

theorem condition?_of_lookup {document : Document} {condition : Option TypeName}
    (lookup : document.value? "condition" =
      condition.map fun needed => .mapping [("typeReachable", .text needed.canonical)]) :
    document.condition? = some condition := by
  rw [condition?, lookup]
  cases condition with
  | none =>
      rfl
  | some needed =>
      simp [value?]

end Document

namespace NativeConfiguration

theorem field?_fieldDocument (field : FieldAccess) :
    (fieldDocument field).field? = some field := by
  obtain ⟨name, allowWrite⟩ := field
  cases allowWrite <;> rfl

theorem method?_methodDocument (method : MethodAccess) :
    (methodDocument method).method? = some method := by
  simp [methodDocument, Document.method?, Document.value?, List.lookup_cons, Document.text?]

theorem typeAccess?_typeDocument (access : TypeAccess) :
    (typeDocument access).typeAccess? = some access := by
  have isElement := isElementOf_typeDocument access
  have condition := Document.condition?_of_lookup isElement.condition
  have fields : (typeDocument access).listUnder? Document.field? "fields" =
      some access.fields := by
    refine Document.listUnder?_of_lookup ?_ field?_fieldDocument
    rw [value?_typeDocument access (by decide)]
    simp [lookup_conditionEntry, lookup_listEntry]
  have methods : (typeDocument access).listUnder? Document.method? "methods" =
      some access.methods := by
    refine Document.listUnder?_of_lookup ?_ method?_methodDocument
    rw [value?_typeDocument access (by decide)]
    simp [lookup_conditionEntry, lookup_listEntry]
  have queriedMethods : (typeDocument access).listUnder? Document.method? "queriedMethods" =
      some access.queriedMethods := by
    refine Document.listUnder?_of_lookup ?_ method?_methodDocument
    rw [value?_typeDocument access (by decide)]
    simp [lookup_conditionEntry, lookup_listEntry]
  simp [Document.typeAccess?, isElement.name, condition, fields, methods, queriedMethods]

/-- An element with a condition and a subject under a key of its own is read back. -/
theorem conditioned?_mapping {α : Type} {key : String} {subject? : Document → Option α}
    {subject : α} {document : Document} (condition : Option TypeName)
    (other : key ≠ "condition") (reads : subject? document = some subject) :
    (Document.mapping (conditionEntry condition ++ [(key, document)])).conditioned? key
      subject? = some ⟨condition, subject⟩ := by
  have different : ("condition" == key) = false := by simpa using other.symm
  have conditionFound :
      (Document.mapping (conditionEntry condition ++ [(key, document)])).value? "condition" =
        condition.map fun needed => .mapping [("typeReachable", .text needed.canonical)] := by
    simp [Document.value?, lookup_conditionEntry, List.lookup_append, List.lookup_cons, different]
  have subjectFound :
      (Document.mapping (conditionEntry condition ++ [(key, document)])).value? key =
        some document := by
    simp [Document.value?, lookup_conditionEntry, List.lookup_append, other]
  have conditionRead := Document.condition?_of_lookup conditionFound
  simp [Document.conditioned?, conditionRead, subjectFound, reads]

/-! ## Depth -/

theorem fits_conditionEntry (condition : Option TypeName) (depth : Nat) :
    ∀ entry ∈ conditionEntry condition, entry.2.Fits (depth + 1) := by
  cases condition with
  | none =>
      intro entry absent
      cases absent
  | some needed =>
      refine List.forall_mem_singleton.2 (.mapping ?_)
      exact List.forall_mem_singleton.2 (.text _ _)

theorem fits_map {α : Type} {write : α → Document} {depth : Nat}
    (each : ∀ item, (write item).Fits depth) (items : List α) :
    (Document.sequence (items.map write)).Fits (depth + 1) := by
  apply Document.Fits.sequence
  intro document member
  obtain ⟨item, -, rfl⟩ := List.mem_map.1 member
  exact each item

theorem fits_listEntry {α : Type} {write : α → Document} {depth : Nat}
    (each : ∀ item, (write item).Fits depth) (key : String) (items : List α) :
    ∀ entry ∈ listEntry key (items.map write), entry.2.Fits (depth + 1) := by
  unfold listEntry
  split
  · intro entry absent
    cases absent
  · simp only [List.forall_mem_singleton]
    exact fits_map each items

theorem fits_fieldDocument (depth : Nat) (field : FieldAccess) :
    (fieldDocument field).Fits (depth + 1) := by
  apply Document.Fits.mapping
  split
  · exact List.forall_mem_cons.2 ⟨.text _ _, List.forall_mem_singleton.2 (.boolean _ _)⟩
  · exact List.forall_mem_singleton.2 (.text _ _)

theorem fits_methodDocument (depth : Nat) (method : MethodAccess) :
    (methodDocument method).Fits (depth + 2) := by
  apply Document.Fits.mapping
  refine List.forall_mem_cons.2 ⟨.text _ _, List.forall_mem_singleton.2 ?_⟩
  exact fits_map (fun type => .text depth _) _

theorem fits_typeDocument (depth : Nat) (access : TypeAccess) :
    (typeDocument access).Fits (depth + 4) := by
  apply Document.Fits.mapping
  simp only [List.cons_append, List.forall_mem_cons, List.forall_mem_append]
  refine ⟨.text _ _, ⟨⟨?_, ?_⟩, ?_⟩, ?_⟩
  · exact fits_conditionEntry _ _
  · exact fits_listEntry (fits_fieldDocument _) _ _
  · exact fits_listEntry (fits_methodDocument _) _ _
  · exact fits_listEntry (fits_methodDocument _) _ _

theorem fits_conditioned {document : Document} {depth : Nat} (fits : document.Fits (depth + 1))
    (condition : Option TypeName) (key : String) :
    (Document.mapping (conditionEntry condition ++ [(key, document)])).Fits (depth + 2) := by
  apply Document.Fits.mapping
  simp only [List.forall_mem_append, List.forall_mem_singleton]
  exact ⟨fits_conditionEntry _ _, fits⟩

theorem find?_file (name : String) (holds : Bool) (document : Document) (wanted : String) :
    (file name holds document).find? (fun file => file.name == wanted) =
      if name = wanted ∧ holds = true then some ⟨name, Json.fileText document⟩ else none := by
  unfold file
  cases holds <;> by_cases same : name = wanted <;> simp [same]

theorem elements?_of_find? {α β : Type} {files : List ConfigurationFile} {name : String}
    {list? : Document → Option Document} {element? : Document → Option β} {document : Document}
    {items : List α} {write : α → Document} {result : α → β}
    (found : files.find? (fun file => file.name == name) =
      if items ≠ [] then some ⟨name, Json.fileText document⟩ else none)
    (fits : document.Fits Json.depthLimit)
    (listed : list? document = some (.sequence (items.map write)))
    (reads : ∀ item, element? (write item) = some (result item)) :
    elements? files name list? element? = some (items.map result) := by
  rw [elements?, found]
  by_cases filled : items ≠ []
  · rw [if_pos filled]
    simp [Json.read?_fileText fits, listed, Document.listOf?_map items reads]
  · rw [if_neg filled]
    rw [ne_eq, not_not] at filled
    rw [filled, List.map_nil]

section Files

variable (configuration : NativeConfiguration)

theorem elements?_reflection :
    elements? configuration.files "reflect-config.json" some Document.typeAccess? =
      some configuration.reflection := by
  have found : configuration.files.find? (fun file => file.name == "reflect-config.json") =
      if configuration.reflection ≠ [] then
        some ⟨"reflect-config.json", Json.fileText configuration.reflectionDocument⟩
      else
        none := by
    simp [files, List.find?_append, find?_file]
  have fits : configuration.reflectionDocument.Fits Json.depthLimit :=
    fits_map (fits_typeDocument _) _
  have read : elements? configuration.files "reflect-config.json" some Document.typeAccess? =
      some (configuration.reflection.map fun access => access) :=
    elements?_of_find? found fits rfl typeAccess?_typeDocument
  rwa [List.map_id'] at read

theorem elements?_resources :
    elements? configuration.files "resource-config.json" includes?
        (Document.conditioned? "pattern" Document.text?) =
      some configuration.withRegexes.resources := by
  have found : configuration.files.find? (fun file => file.name == "resource-config.json") =
      if configuration.resources ≠ [] then
        some ⟨"resource-config.json", Json.fileText configuration.resourceDocument⟩
      else
        none := by
    simp [files, List.find?_append, find?_file]
  have fits : configuration.resourceDocument.Fits Json.depthLimit := by
    refine .mapping (List.forall_mem_cons.2 ⟨.mapping (List.forall_mem_singleton.2 ?_),
      List.forall_mem_singleton.2 (.sequence fun _ absent => absurd absent List.not_mem_nil)⟩)
    exact fits_map (fun resource : Conditioned String =>
      fits_conditioned (.text _ _) resource.condition "pattern") _
  exact elements?_of_find? found fits rfl fun resource =>
    conditioned?_mapping resource.condition (by decide) rfl

theorem elements?_proxies :
    elements? configuration.files "proxy-config.json" some
        (Document.conditioned? "interfaces" (Document.listOf? Document.type?)) =
      some configuration.proxies := by
  have found : configuration.files.find? (fun file => file.name == "proxy-config.json") =
      if configuration.proxies ≠ [] then
        some ⟨"proxy-config.json", Json.fileText configuration.proxyDocument⟩
      else
        none := by
    simp [files, List.find?_append, find?_file]
  have fits : configuration.proxyDocument.Fits Json.depthLimit :=
    fits_map (fun proxy : Conditioned (List TypeName) =>
      fits_conditioned (fits_map (fun type : TypeName => .text _ type.canonical) _)
        proxy.condition "interfaces") _
  have read : elements? configuration.files "proxy-config.json" some
      (Document.conditioned? "interfaces" (Document.listOf? Document.type?)) =
        some (configuration.proxies.map fun proxy => proxy) :=
    elements?_of_find? found fits rfl fun proxy =>
      conditioned?_mapping proxy.condition (by decide) (Document.listOf?_types proxy.subject)
  rwa [List.map_id'] at read

theorem elements?_serialization :
    elements? configuration.files "serialization-config.json"
        (fun document => document.value? "types")
        (Document.conditioned? "name" Document.type?) =
      some configuration.serialization := by
  have found : configuration.files.find? (fun file => file.name == "serialization-config.json") =
      if configuration.serialization ≠ [] then
        some ⟨"serialization-config.json", Json.fileText configuration.serializationDocument⟩
      else
        none := by
    simp [files, List.find?_append, find?_file]
  have fits : configuration.serializationDocument.Fits Json.depthLimit := by
    refine .mapping (List.forall_mem_cons.2 ⟨?_,
      List.forall_mem_singleton.2 (.sequence fun _ absent => absurd absent List.not_mem_nil)⟩)
    exact fits_map (fun serialized : Conditioned TypeName =>
      fits_conditioned (.text _ _) serialized.condition "name") _
  have read : elements? configuration.files "serialization-config.json"
      (fun document => document.value? "types") (Document.conditioned? "name" Document.type?) =
        some (configuration.serialization.map fun serialized => serialized) :=
    elements?_of_find? found fits rfl fun serialized =>
      conditioned?_mapping serialized.condition (by decide)
        (Document.type?_text serialized.subject)
  rwa [List.map_id'] at read

/-- What a configuration lists is read back from its files, with a regular expression in
the place of each resource pattern. -/
theorem read?_files : read? configuration.files = some configuration.withRegexes := by
  rw [read?, elements?_reflection, elements?_resources, elements?_proxies,
    elements?_serialization]
  rfl

end Files

end NativeConfiguration

end AheadOfTime
