import AheadOfTime.Decoding
import AheadOfTime.Proofs.Keyed.Collected
import Mathlib.Data.List.Nodup
import Mathlib.Data.List.Pairwise
import Mathlib.Data.List.Perm.Basic

/-!
# Decoding whatever the layout

A structure of fields that do not get in each other's way is decoded from a mapping whatever the
order of the entries is, from the items of a sequence as from the entries that they stand for, and
without a field as with what stands for its absence.
-/

namespace AheadOfTime

/-- Whether two attempts give the same value, or none. -/
def Agree {ε α : Type} (first second : Except ε α) : Prop :=
  first.toOption = second.toOption

theorem toOption_bind {ε α β : Type} (first : Except ε α) (next : α → Except ε β) :
    (first >>= next).toOption = first.toOption.bind fun value => (next value).toOption := by
  cases first <;> rfl

theorem toOption_mapError {ε δ α : Type} (attempt : Except ε α) (change : ε → δ) :
    (attempt.mapError change).toOption = attempt.toOption := by
  cases attempt <;> rfl

/-- The entries of a mapping with pairwise different keys. -/
def Distinct (entries : List (String × Document)) : Prop :=
  (entries.map Prod.fst).Nodup

theorem Distinct.perm {entries others : List (String × Document)} (distinct : Distinct entries)
    (permuted : entries.Perm others) : Distinct others :=
  (permuted.map Prod.fst).nodup distinct

theorem Distinct.eq_of_key_eq {entries : List (String × Document)} (distinct : Distinct entries)
    {first second : String × Document} (isFirst : first ∈ entries) (isSecond : second ∈ entries)
    (sameKey : first.1 = second.1) : first = second :=
  List.inj_on_of_nodup_map distinct isFirst isSecond sameKey

/-- The keys of entries that are made of keys and documents. -/
theorem sublist_zip (keys : List String) (documents : List Document) :
    ((keys.zip documents).map Prod.fst).Sublist keys := by
  induction keys generalizing documents with
  | nil =>
      exact List.Sublist.slnil
  | cons key keys inductionHypothesis =>
      cases documents with
      | nil =>
          exact List.nil_sublist _
      | cons document documents =>
          exact (inductionHypothesis documents).cons_cons key

/-- Whether it does not matter which of two fields is put into a draft first. -/
def Field.Commutes {δ : Type} (first second : Field δ) : Prop :=
  ∀ document other draft,
    ((first.put document draft).toOption.bind fun draft => (second.put other draft).toOption) =
      (second.put other draft).toOption.bind fun draft => (first.put document draft).toOption

theorem Field.toOption_put_of {δ α : Type} (name : String) (decoder : Decoder α)
    (store : δ → α → δ) (document : Document) (draft : δ) :
    ((Field.of name decoder store).put document draft).toOption =
      (decoder document).toOption.map (store draft) := by
  change (decoder document >>= fun value => pure (store draft value)).toOption = _
  cases decoder document <;> rfl

/-- Fields that are stored in different places commute. -/
theorem Field.commutes_of {δ α β : Type} {name other : String} {decoder : Decoder α}
    {otherDecoder : Decoder β} {store : δ → α → δ} {otherStore : δ → β → δ}
    (apart : ∀ draft value otherValue,
      otherStore (store draft value) otherValue = store (otherStore draft otherValue) value) :
    (Field.of name decoder store).Commutes (.of other otherDecoder otherStore) := by
  intro document otherDocument draft
  simp only [toOption_put_of]
  cases (decoder document).toOption with
  | none =>
      cases (otherDecoder otherDocument).toOption <;> rfl
  | some value =>
      cases (otherDecoder otherDocument).toOption with
      | none =>
          rfl
      | some otherValue =>
          exact congrArg some (apart draft value otherValue)

theorem Field.Commutes.symm {δ : Type} {first second : Field δ} (commutes : first.Commutes second) :
    second.Commutes first :=
  fun document other draft => (commutes other document draft).symm

/-- Whether what holds of a draft still holds when a field has been put into it. -/
def Field.Keeps {δ : Type} (field : Field δ) (holds : δ → Prop) : Prop :=
  ∀ document draft filled, field.put document draft = .ok filled → holds draft → holds filled

theorem Field.keeps_of {δ α : Type} {name : String} {decoder : Decoder α} {store : δ → α → δ}
    {holds : δ → Prop} (kept : ∀ draft value, holds draft → holds (store draft value)) :
    (Field.of name decoder store).Keeps holds := by
  intro document draft filled puts before
  have stored := congrArg Except.toOption puts
  rw [toOption_put_of] at stored
  obtain ⟨value, -, rfl⟩ := Option.map_eq_some_iff.1 stored
  exact kept draft value before

theorem Decoder.agree_list {α : Type} {decoder : Decoder α} {items others : List Document}
    (alike : List.Forall₂ (fun item other => Agree (decoder item) (decoder other)) items others) :
    Agree (list decoder (.sequence items)) (list decoder (.sequence others)) := by
  rw [Agree, list, list]
  induction alike with
  | nil =>
      rfl
  | @cons item other items others here later inductionHypothesis =>
      rw [List.mapM_cons, List.mapM_cons, toOption_bind, toOption_bind, here]
      refine congrArg _ (funext fun value => ?_)
      rw [toOption_bind, toOption_bind, inductionHypothesis]

namespace Shape

/-- Whether the fields of a structure have names of their own, none of them that of the kind, and
do not get in each other's way. -/
structure Regular {δ α : Type} (shape : Shape δ α) : Prop where
  distinct : shape.names.Nodup
  unkinded : kindKey ∉ shape.names
  commuting : shape.fields.Pairwise Field.Commutes

section

variable {δ α : Type} (shape : Shape δ α)

def field? (key : String) : Option (Field δ) :=
  shape.fields.find? fun field => field.name == key

def accept (draft : Option δ) (entry : String × Document) : Option δ :=
  draft.bind fun draft =>
    match shape.field? entry.1 with
    | none => if shape.closed then none else some draft
    | some field => (field.put entry.2 draft).toOption

theorem foldl_accept_none (entries : List (String × Document)) :
    entries.foldl shape.accept none = none := by
  induction entries with
  | nil =>
      rfl
  | cons entry entries inductionHypothesis =>
      exact inductionHypothesis

theorem toOption_putEntries {entries : List (String × Document)} (distinct : Distinct entries)
    {seen : List String} (unseen : ∀ entry ∈ entries, entry.1 ∉ seen) (draft : δ) :
    (shape.putEntries seen draft entries).toOption = entries.foldl shape.accept (some draft) := by
  induction entries generalizing seen draft with
  | nil =>
      rfl
  | cons entry entries inductionHypothesis =>
      obtain ⟨key, document⟩ := entry
      obtain ⟨fresh, othersDistinct⟩ := List.nodup_cons.1 distinct
      obtain ⟨keyUnseen, othersUnseen⟩ := List.forall_mem_cons.1 unseen
      rw [putEntries, List.foldl_cons, accept, Option.bind_some]
      change _ = List.foldl shape.accept (match shape.field? key with | none => _ | some _ => _) _
      rw [field?]
      cases shape.fields.find? fun field => field.name == key with
      | none =>
          cases shape.closed with
          | true =>
              exact (shape.foldl_accept_none entries).symm
          | false =>
              exact inductionHypothesis othersDistinct othersUnseen draft
      | some field =>
          have notContained : seen.contains key = false := by
            rw [← Bool.not_eq_true, List.contains_iff_mem]
            exact keyUnseen
          have laterUnseen : ∀ entry ∈ entries, entry.1 ∉ key :: seen := by
            intro entry member
            rw [List.mem_cons, not_or]
            refine ⟨fun same => fresh ?_, othersUnseen entry member⟩
            exact List.mem_map.2 ⟨entry, member, same⟩
          simp only [notContained, Bool.false_eq_true, if_false, toOption_bind]
          cases (field.put document draft).toOption with
          | none =>
              exact (shape.foldl_accept_none entries).symm
          | some filled =>
              exact inductionHypothesis othersDistinct laterUnseen filled

/-- What a mapping stands for: its entries are put into the blank draft one by one. -/
theorem toOption_ofEntries {entries : List (String × Document)} (distinct : Distinct entries) :
    (shape.ofEntries entries).toOption =
      (entries.foldl shape.accept (some shape.blank)).bind fun draft =>
        (shape.finish draft).toOption := by
  have whole : shape.ofEntries entries = shape.putEntries [] shape.blank entries >>=
      fun draft => (shape.finish draft).mapError .missingField := rfl
  rw [whole, toOption_bind,
    shape.toOption_putEntries distinct (fun _ _ => List.not_mem_nil) shape.blank]
  simp only [toOption_mapError]

variable {shape}

theorem mem_of_field? {key : String} {field : Field δ} (found : shape.field? key = some field) :
    field ∈ shape.fields ∧ field.name = key := by
  refine ⟨List.mem_of_find?_eq_some found, ?_⟩
  simpa using List.find?_some found

theorem field?_of_not_mem {key : String} (surplus : key ∉ shape.names) :
    shape.field? key = none := by
  cases found : shape.field? key with
  | none =>
      rfl
  | some field =>
      obtain ⟨member, rfl⟩ := mem_of_field? found
      exact absurd (List.mem_map.2 ⟨field, member, rfl⟩) surplus

/-- An entry that is no field of an open structure does not matter. -/
theorem accept_of_not_mem (opened : shape.closed = false) {entry : String × Document}
    (surplus : entry.1 ∉ shape.names) (draft : Option δ) : shape.accept draft entry = draft := by
  cases draft with
  | none =>
      rfl
  | some draft =>
      rw [accept, Option.bind_some, field?_of_not_mem surplus, opened]
      rfl

/-- An entry that is no field of a closed structure is refused. -/
theorem putEntries_of_not_mem (closed : shape.closed = true)
    {entries : List (String × Document)} {entry : String × Document} (member : entry ∈ entries)
    (unknown : entry.1 ∉ shape.names) (seen : List String) (draft : δ) :
    (shape.putEntries seen draft entries).toOption = none := by
  induction entries generalizing seen draft with
  | nil =>
      cases member
  | cons first entries inductionHypothesis =>
      obtain ⟨key, document⟩ := first
      rw [putEntries]
      change (match shape.field? key with | none => _ | some field => _ : Except _ δ).toOption = _
      rcases List.mem_cons.1 member with rfl | later
      · rw [field?_of_not_mem unknown, closed]
        rfl
      · cases shape.field? key with
        | none =>
            rw [closed]
            rfl
        | some field =>
            simp only []
            split_ifs
            · rfl
            · rw [toOption_bind]
              cases (field.put document draft).toOption with
              | none =>
                  rfl
              | some filled =>
                  exact inductionHypothesis later _ filled

/-- Whether a document is read into a field as the value that the field has without it. -/
def ReadsAsDefault (shape : Shape δ α) (name : String) (document : Document) : Prop :=
  ∃ field ∈ shape.fields, field.name = name ∧ field.put document shape.blank = .ok shape.blank

/-- Whether a structure cannot be made without a field: its draft lacks something that no other
field gives it. -/
def Requires (shape : Shape δ α) (name : String) : Prop :=
  ∃ lacks : δ → Prop, lacks shape.blank ∧
    (∀ field ∈ shape.fields, field.name ≠ name → field.Keeps lacks) ∧
    ∀ draft, lacks draft → (shape.finish draft).toOption = none

theorem requires_of {name : String} (position : Nat)
    (named : shape.names[position]? = some name) (lacks : δ → Prop) (blank : lacks shape.blank)
    (kept : ∀ field ∈ shape.fields.eraseIdx position, field.Keeps lacks)
    (unfinished : ∀ draft, lacks draft → (shape.finish draft).toOption = none) :
    shape.Requires name := by
  refine ⟨lacks, blank, fun field member apart => kept field ?_, unfinished⟩
  obtain ⟨other, found⟩ := List.mem_iff_getElem?.1 member
  refine List.mem_eraseIdx_iff_getElem?.2 ⟨other, ?_, found⟩
  rintro rfl
  rw [names, List.getElem?_map, found] at named
  exact apart (Option.some.inj named)

theorem toOption_ofEntries_of_requires {entries : List (String × Document)}
    (distinct : Distinct entries) {name : String} (requires : shape.Requires name)
    (absent : ∀ entry ∈ entries, entry.1 ≠ name) : (shape.ofEntries entries).toOption = none := by
  obtain ⟨lacks, blank, kept, unfinished⟩ := requires
  have still : ∀ draft, lacks draft → ∀ filled,
      entries.foldl shape.accept (some draft) = some filled → lacks filled := by
    intro draft before
    induction entries generalizing draft with
    | nil =>
        rintro filled ⟨⟩
        exact before
    | cons entry entries inductionHypothesis =>
        obtain ⟨here, later⟩ := List.forall_mem_cons.1 absent
        intro filled ends
        rw [List.foldl_cons] at ends
        cases accepted : shape.accept (some draft) entry with
        | none =>
            rw [accepted, foldl_accept_none] at ends
            cases ends
        | some next =>
            rw [accepted] at ends
            refine inductionHypothesis (List.nodup_cons.1 distinct).2 later next ?_ filled ends
            rw [accept, Option.bind_some] at accepted
            cases found : shape.field? entry.1 with
            | none =>
                rw [found] at accepted
                cases closed : shape.closed <;> rw [closed] at accepted <;> cases accepted
                exact before
            | some field =>
                rw [found] at accepted
                obtain ⟨member, isName⟩ := mem_of_field? found
                refine kept field member (isName ▸ here) entry.2 draft next ?_ before
                cases puts : field.put entry.2 draft with
                | error failure =>
                    simp only [puts] at accepted
                    cases accepted
                | ok stored =>
                    simp only [puts] at accepted
                    cases accepted
                    rfl
  rw [shape.toOption_ofEntries distinct]
  cases filled : entries.foldl shape.accept (some shape.blank) with
  | none =>
      rfl
  | some draft =>
      exact unfinished draft (still _ blank draft filled)

/-- What a structure needs and what may be left out: the fields that it requires come first, the
others stand beside a document that says the same as leaving them out. -/
structure Needs (shape : Shape δ α) (required : List String)
    (optional : List (String × Document)) : Prop where
  names : shape.names = required ++ optional.map Prod.fst
  requires : ∀ name ∈ required, shape.Requires name
  reads : ∀ entry ∈ optional, shape.ReadsAsDefault entry.1 entry.2

variable (regular : shape.Regular)

include regular

theorem field?_of_mem {field : Field δ} (member : field ∈ shape.fields) :
    shape.field? field.name = some field := by
  rw [field?]
  simp only [beq_eq_decide]
  exact Keyed.find?_of_mem regular.distinct member

/-- Entries of different keys can be put into a draft in either order. -/
theorem accept_comm {first second : String × Document} (apart : first.1 ≠ second.1)
    (draft : Option δ) :
    shape.accept (shape.accept draft first) second =
      shape.accept (shape.accept draft second) first := by
  cases draft with
  | none =>
      rfl
  | some draft =>
      simp only [accept, Option.bind_some]
      cases isFirst : shape.field? first.1 with
      | none =>
          cases isSecond : shape.field? second.1 with
          | none =>
              cases shape.closed <;> simp
          | some field =>
              cases shape.closed <;> simp
      | some field =>
          cases isSecond : shape.field? second.1 with
          | none =>
              cases shape.closed <;> simp
          | some other =>
              have different : field ≠ other := by
                rintro rfl
                exact apart ((mem_of_field? isFirst).2.symm.trans (mem_of_field? isSecond).2)
              have symmetric : Std.Symm (Field.Commutes (δ := δ)) := ⟨fun _ _ => .symm⟩
              have commutes := regular.commuting.forall (mem_of_field? isFirst).1
                (mem_of_field? isSecond).1 different
              exact commutes first.2 second.2 draft

/-- The order of the entries does not matter. -/
theorem agree_ofEntries_perm {entries others : List (String × Document)}
    (distinct : Distinct entries) (permuted : entries.Perm others) :
    Agree (shape.ofEntries entries) (shape.ofEntries others) := by
  rw [Agree, shape.toOption_ofEntries distinct, shape.toOption_ofEntries (distinct.perm permuted)]
  refine congrArg (Option.bind · _) (permuted.foldl_eq' ?_ _)
  intro first isFirst second isSecond draft
  by_cases sameKey : first.1 = second.1
  · rw [distinct.eq_of_key_eq isFirst isSecond sameKey]
  · exact accept_comm regular sameKey draft

omit regular in
/-- Entries that are no fields of an open structure do not matter. -/
theorem agree_ofEntries_surplus (opened : shape.closed = false)
    {added entries : List (String × Document)} (distinct : Distinct (added ++ entries))
    (surplus : ∀ entry ∈ added, entry.1 ∉ shape.names) :
    Agree (shape.ofEntries (added ++ entries)) (shape.ofEntries entries) := by
  have othersDistinct : Distinct entries := by
    rw [Distinct, List.map_append] at distinct
    exact distinct.of_append_right
  have unchanged : added.foldl shape.accept (some shape.blank) = some shape.blank := by
    induction added with
    | nil =>
        rfl
    | cons first added inductionHypothesis =>
        obtain ⟨firstSurplus, othersSurplus⟩ := List.forall_mem_cons.1 surplus
        rw [List.foldl_cons, accept_of_not_mem opened firstSurplus]
        exact inductionHypothesis (List.nodup_cons.1 distinct).2 othersSurplus
  rw [Agree, shape.toOption_ofEntries distinct, shape.toOption_ofEntries othersDistinct,
    List.foldl_append, unchanged]

omit regular in
/-- A document may be replaced by another one that is read into its field alike. -/
theorem agree_ofEntries_replace {before after : List (String × Document)} {key : String}
    {document other : Document} (distinct : Distinct (before ++ (key, document) :: after))
    (alike : ∀ field, shape.field? key = some field → ∀ draft,
      Agree (field.put document draft) (field.put other draft)) :
    Agree (shape.ofEntries (before ++ (key, document) :: after))
      (shape.ofEntries (before ++ (key, other) :: after)) := by
  have otherDistinct : Distinct (before ++ (key, other) :: after) := by
    rw [Distinct, List.map_append] at distinct ⊢
    exact distinct
  have accepted : ∀ draft,
      shape.accept draft (key, document) = shape.accept draft (key, other) := by
    intro draft
    cases draft with
    | none =>
        rfl
    | some draft =>
        rw [accept, accept, Option.bind_some, Option.bind_some]
        cases found : shape.field? key with
        | none =>
            rfl
        | some field =>
            exact alike field found draft
  rw [Agree, shape.toOption_ofEntries distinct, shape.toOption_ofEntries otherDistinct,
    List.foldl_append, List.foldl_append, List.foldl_cons, List.foldl_cons, accepted]

/-- A field that is read as its default may as well be left out. -/
theorem agree_ofEntries_default {name : String} {document : Document}
    {entries : List (String × Document)} (distinct : Distinct ((name, document) :: entries))
    (reads : shape.ReadsAsDefault name document) :
    Agree (shape.ofEntries ((name, document) :: entries)) (shape.ofEntries entries) := by
  obtain ⟨field, member, rfl, unchanged⟩ := reads
  have accepted : shape.accept (some shape.blank) (field.name, document) = some shape.blank := by
    rw [accept, Option.bind_some, field?_of_mem regular member]
    exact congrArg Except.toOption unchanged
  rw [Agree, shape.toOption_ofEntries distinct,
    shape.toOption_ofEntries (List.nodup_cons.1 distinct).2, List.foldl_cons, accepted]

/-- Items are put into fields as the entries are that they stand for. -/
theorem toOption_putItems {fields : List (Field δ)}
    (contained : ∀ field ∈ fields, field ∈ shape.fields) {items : List Document}
    (fits : items.length ≤ fields.length) (draft : δ) :
    (putItems fields draft items).toOption =
      (((fields.map Field.name).zip items).foldl shape.accept (some draft)).map (·, 0) := by
  induction fields generalizing items draft with
  | nil =>
      obtain rfl := List.length_eq_zero_iff.1 (Nat.le_zero.1 fits)
      rfl
  | cons field fields inductionHypothesis =>
      obtain ⟨here, later⟩ := List.forall_mem_cons.1 contained
      cases items with
      | nil =>
          rfl
      | cons item items =>
          have accepted : shape.accept (some draft) (field.name, item) =
              (field.put item draft).toOption := by
            rw [accept, Option.bind_some, field?_of_mem regular here]
          rw [putItems, toOption_bind, List.map_cons, List.zip_cons_cons, List.foldl_cons, accepted]
          cases (field.put item draft).toOption with
          | none =>
              rw [shape.foldl_accept_none]
              rfl
          | some filled =>
              exact inductionHypothesis later (Nat.le_of_succ_le_succ fits) filled

theorem distinct_zip (items : List Document) : Distinct (shape.names.zip items) :=
  (sublist_zip shape.names items).nodup regular.distinct

/-- The first fields may be written as items. -/
theorem agree_ofItems {items : List Document} (fits : items.length ≤ shape.fields.length) :
    Agree (shape.ofItems items) (shape.ofEntries (shape.names.zip items)) := by
  rw [Agree, shape.toOption_ofEntries (distinct_zip regular items), ofItems, toOption_bind,
    toOption_putItems regular (fun _ => id) fits, names]
  cases ((shape.fields.map Field.name).zip items).foldl shape.accept (some shape.blank) with
  | none =>
      rfl
  | some draft =>
      rw [Option.map_some, Option.bind_some, Option.bind_some]
      cases finished : shape.finish draft <;> simp only [finished] <;> rfl

end

end Shape

end AheadOfTime
