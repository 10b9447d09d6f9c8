import AheadOfTime.Proofs.Decoding.Layout

/-!
# Decoding structures of several kinds

The kind of a structure is taken out of its entries wherever it is named among them, and what is
left is decoded as a structure of that kind.  So the layout of the whole does not matter where the
layout of each kind does not.
-/

namespace AheadOfTime

section

variable {κ : Type} (words : List (String × κ))

/-- The entries that are left when the kind is taken out. -/
def unkinded (entries : List (String × Document)) : List (String × Document) :=
  entries.filter fun entry => entry.1 ≠ kindKey

/-- Whether the entries of a mapping name a kind. -/
def Names (entries : List (String × Document)) (kind : κ) : Prop :=
  ∃ document, (kindKey, document) ∈ entries ∧ kindWord words document = .ok kind

variable {words}

theorem unkinded_of_absent {entries : List (String × Document)}
    (absent : ∀ entry ∈ entries, entry.1 ≠ kindKey) : unkinded entries = entries :=
  List.filter_eq_self.2 fun entry member => decide_eq_true (absent entry member)

theorem unkinded_cons_kind (document : Document) (entries : List (String × Document)) :
    unkinded ((kindKey, document) :: entries) = unkinded entries :=
  List.filter_cons_of_neg (by simp)

theorem unkinded_cons_of_ne {entry : String × Document} (apart : entry.1 ≠ kindKey)
    (entries : List (String × Document)) :
    unkinded (entry :: entries) = entry :: unkinded entries :=
  List.filter_cons_of_pos (decide_eq_true apart)

theorem Distinct.unkinded {entries : List (String × Document)} (distinct : Distinct entries) :
    Distinct (unkinded entries) :=
  (List.filter_sublist.map Prod.fst).nodup distinct

theorem absent_of_distinct {document : Document} {entries : List (String × Document)}
    (distinct : Distinct ((kindKey, document) :: entries)) :
    ∀ entry ∈ entries, entry.1 ≠ kindKey := by
  intro entry member same
  exact (List.nodup_cons.1 distinct).1 (List.mem_map.2 ⟨entry, member, same⟩)

theorem names_cons_kind_iff {document : Document} {entries : List (String × Document)}
    (absent : ∀ entry ∈ entries, entry.1 ≠ kindKey) {kind : κ} :
    Names words ((kindKey, document) :: entries) kind ↔ kindWord words document = .ok kind := by
  constructor
  · rintro ⟨other, member, reads⟩
    rcases List.mem_cons.1 member with here | later
    · cases here
      exact reads
    · exact absurd rfl (absent _ later)
  · exact fun reads => ⟨document, List.mem_cons_self, reads⟩

theorem names_cons_iff_of_ne {entry : String × Document} (apart : entry.1 ≠ kindKey)
    {entries : List (String × Document)} {kind : κ} :
    Names words (entry :: entries) kind ↔ Names words entries kind := by
  refine exists_congr fun document => and_congr_left fun _ => ?_
  rw [List.mem_cons, or_iff_right]
  intro same
  exact apart (congrArg Prod.fst same).symm

theorem takeKind_of_absent {entries : List (String × Document)} (kind : κ)
    (absent : ∀ entry ∈ entries, entry.1 ≠ kindKey) :
    takeKind words (some kind) entries = .ok (kind, entries) := by
  induction entries with
  | nil =>
      rfl
  | cons entry entries inductionHypothesis =>
      obtain ⟨here, later⟩ := List.forall_mem_cons.1 absent
      rw [takeKind, if_neg here, inductionHypothesis later]
      rfl

theorem takeKind_eq_ok_iff {entries : List (String × Document)} (distinct : Distinct entries)
    {kind : κ} {rest : List (String × Document)} :
    takeKind words none entries = .ok (kind, rest) ↔
      Names words entries kind ∧ rest = unkinded entries := by
  induction entries generalizing rest with
  | nil =>
      simp [takeKind, Names]
  | cons entry entries inductionHypothesis =>
      obtain ⟨key, document⟩ := entry
      rw [takeKind]
      by_cases isKind : key = kindKey
      · subst isKind
        have absent := absent_of_distinct distinct
        rw [if_pos rfl, unkinded_cons_kind, unkinded_of_absent absent, names_cons_kind_iff absent]
        cases kindWord words document with
        | error failure =>
            simp [bind, Except.bind]
        | ok found =>
            change takeKind words (some found) entries = _ ↔ _
            rw [takeKind_of_absent found absent]
            simp [eq_comm]
      · have step : takeKind words none entries >>=
            (fun found => pure (found.1, (key, document) :: found.2)) = .ok (kind, rest) ↔
              ∃ others, takeKind words none entries = .ok (kind, others) ∧
                rest = (key, document) :: others := by
          cases takeKind words none entries with
          | error failure =>
              simp [bind, Except.bind]
          | ok found =>
              simp [bind, Except.bind, pure, Except.pure, eq_comm, Prod.ext_iff]
        rw [if_neg isKind, unkinded_cons_of_ne isKind, names_cons_iff_of_ne isKind]
        refine step.trans ?_
        simp only [inductionHypothesis (List.nodup_cons.1 distinct).2]
        constructor
        · rintro ⟨others, ⟨names, rfl⟩, same⟩
          exact ⟨names, same⟩
        · rintro ⟨names, same⟩
          exact ⟨_, ⟨names, rfl⟩, same⟩

theorem Names.mono {entries others : List (String × Document)} {kind : κ}
    (names : Names words entries kind) (contained : ∀ entry ∈ entries, entry ∈ others) :
    Names words others kind := by
  obtain ⟨document, member, reads⟩ := names
  exact ⟨document, contained _ member, reads⟩

end

namespace Decoder

/-- The decoder of structures of several kinds. -/
def tagged {δ α κ : Type} (title : String) (words : List (String × κ)) (shapes : κ → Shape δ α) :
    Decoder α := fun document => do
  let (kind, rest) ← splitKind title words document
  (shapes kind).decode rest

/-- What it means for the layout of a structure of several kinds not to matter: where the kind and
the fields stand among the entries, what else stands among them, whether a field that may be left
out is given its default, and whether the kind and the first fields are written as items. -/
structure IgnoresLayout {δ α κ : Type} (decoder : Decoder α) (words : List (String × κ))
    (shapes : κ → Shape δ α) (required : κ → List String)
    (optional : κ → List (String × Document)) : Prop where
  names (kind : κ) : (shapes kind).names = required kind ++ (optional kind).map Prod.fst
  permuted {entries others : List (String × Document)} :
    Distinct entries → entries.Perm others →
      Agree (decoder (.mapping entries)) (decoder (.mapping others))
  surplus {kind : κ} {added entries : List (String × Document)} :
    Distinct (added ++ entries) → Names words entries kind →
      (∀ entry ∈ added, entry.1 ≠ kindKey ∧ entry.1 ∉ (shapes kind).names) →
      Agree (decoder (.mapping (added ++ entries))) (decoder (.mapping entries))
  defaulted {kind : κ} {name : String} {document : Document}
    {entries : List (String × Document)} :
    Distinct ((name, document) :: entries) → Names words entries kind →
      (shapes kind).ReadsAsDefault name document →
      Agree (decoder (.mapping ((name, document) :: entries))) (decoder (.mapping entries))
  default {kind : κ} {entry : String × Document} :
    entry ∈ optional kind → (shapes kind).ReadsAsDefault entry.1 entry.2
  needed {kind : κ} {name : String} {entries : List (String × Document)} :
    Distinct entries → Names words entries kind → name ∈ required kind →
      (∀ entry ∈ entries, entry.1 ≠ name) → (decoder (.mapping entries)).toOption = none
  listed {kind : κ} {first : Document} {items : List Document} :
    kindWord words first = .ok kind → items.length ≤ (shapes kind).names.length →
      Agree (decoder (.sequence (first :: items)))
        (decoder (.mapping ((kindKey, first) :: (shapes kind).names.zip items)))

section

variable {δ α κ : Type} {title : String} {words : List (String × κ)} {shapes : κ → Shape δ α}
  {required : κ → List String} {optional : κ → List (String × Document)}

theorem toOption_tagged_mapping {entries : List (String × Document)} (distinct : Distinct entries)
    {kind : κ} (names : Names words entries kind) :
    (tagged title words shapes (.mapping entries)).toOption =
      ((shapes kind).ofEntries (unkinded entries)).toOption := by
  have taken := (takeKind_eq_ok_iff distinct).2 ⟨names, rfl⟩
  rw [tagged, splitKind, taken]
  rfl

theorem toOption_tagged_unnamed {entries : List (String × Document)} (distinct : Distinct entries)
    (unnamed : ∀ kind, ¬Names words entries kind) :
    (tagged title words shapes (.mapping entries)).toOption = none := by
  rw [tagged, splitKind]
  cases taken : takeKind words none entries with
  | error failure =>
      rfl
  | ok found =>
      exact absurd ((takeKind_eq_ok_iff distinct).1 taken).1 (unnamed found.1)

/-- The layout does not matter when that of each kind does not. -/
theorem tagged_ignoresLayout (regular : ∀ kind, (shapes kind).Regular)
    (opened : ∀ kind, (shapes kind).closed = false)
    (needs : ∀ kind, (shapes kind).Needs (required kind) (optional kind)) :
    (tagged title words shapes).IgnoresLayout words shapes required optional where
  names kind := (needs kind).names
  permuted {entries others} distinct permuted := by
    have othersDistinct := distinct.perm permuted
    have sameNames : ∀ kind, Names words entries kind ↔ Names words others kind := fun kind =>
      ⟨fun names => names.mono fun _ => permuted.mem_iff.1,
        fun names => names.mono fun _ => permuted.mem_iff.2⟩
    by_cases named : ∃ kind, Names words entries kind
    · obtain ⟨kind, names⟩ := named
      rw [Agree, toOption_tagged_mapping distinct names,
        toOption_tagged_mapping othersDistinct ((sameNames kind).1 names)]
      exact Shape.agree_ofEntries_perm (regular kind) distinct.unkinded (permuted.filter _)
    · rw [not_exists] at named
      rw [Agree, toOption_tagged_unnamed distinct named,
        toOption_tagged_unnamed othersDistinct fun kind names =>
          named kind ((sameNames kind).2 names)]
  surplus {kind added entries} distinct names surplus := by
    have namesAll : Names words (added ++ entries) kind :=
      names.mono fun _ => List.mem_append_right added
    have othersDistinct : Distinct entries := by
      rw [Distinct, List.map_append] at distinct
      exact distinct.of_append_right
    have left : unkinded (added ++ entries) = added ++ unkinded entries := by
      rw [unkinded, List.filter_append]
      exact congrArg (· ++ _) (unkinded_of_absent fun entry member => (surplus entry member).1)
    have leftDistinct := distinct.unkinded
    rw [left] at leftDistinct
    rw [Agree, toOption_tagged_mapping distinct namesAll,
      toOption_tagged_mapping othersDistinct names, left]
    exact Shape.agree_ofEntries_surplus (opened kind) leftDistinct
      fun entry member => (surplus entry member).2
  defaulted {kind name document entries} distinct names reads := by
    have isField : name ∈ (shapes kind).names := by
      obtain ⟨field, member, rfl, -⟩ := reads
      exact List.mem_map.2 ⟨field, member, rfl⟩
    have apart : name ≠ kindKey := by
      rintro rfl
      exact (regular kind).unkinded isField
    have leftDistinct := distinct.unkinded
    rw [unkinded_cons_of_ne apart] at leftDistinct
    rw [Agree, toOption_tagged_mapping distinct ((names_cons_iff_of_ne apart).2 names),
      toOption_tagged_mapping (List.nodup_cons.1 distinct).2 names, unkinded_cons_of_ne apart]
    exact Shape.agree_ofEntries_default (regular kind) leftDistinct reads
  default {kind entry} member := (needs kind).reads entry member
  needed {kind name entries} distinct names isRequired absent := by
    rw [toOption_tagged_mapping distinct names]
    refine Shape.toOption_ofEntries_of_requires distinct.unkinded
      ((needs kind).requires name isRequired) fun entry member => ?_
    exact absent entry (List.mem_of_mem_filter member)
  listed {kind first items} reads fits := by
    have fieldsFit : items.length ≤ (shapes kind).fields.length := by
      rwa [Shape.names, List.length_map] at fits
    have absent : ∀ entry ∈ (shapes kind).names.zip items, entry.1 ≠ kindKey := by
      intro entry member same
      refine (regular kind).unkinded (same ▸ ?_)
      exact (sublist_zip _ items).subset (List.mem_map_of_mem member)
    have distinct : Distinct ((kindKey, first) :: (shapes kind).names.zip items) := by
      refine List.nodup_cons.2 ⟨?_, Shape.distinct_zip (regular kind) items⟩
      intro member
      obtain ⟨entry, isEntry, same⟩ := List.mem_map.1 member
      exact absent entry isEntry same
    have listed : tagged title words shapes (.sequence (first :: items)) =
        (shapes kind).ofItems items := by
      rw [tagged, splitKind, reads]
      rfl
    rw [Agree, listed, toOption_tagged_mapping distinct ((names_cons_kind_iff absent).2 reads),
      unkinded_cons_kind, unkinded_of_absent absent]
    exact Shape.agree_ofItems (regular kind) fieldsFit

end

end Decoder

end AheadOfTime
