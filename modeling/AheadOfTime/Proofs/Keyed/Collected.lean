import AheadOfTime.Proofs.Keyed

/-!
# What is collected from items in turn

The list that items are put into one after the other has one item for each of their
keys, in the order of the first item of each key, and that item is what the items of
the key make together.  Putting in items that add nothing leaves a list alone.
-/

namespace AheadOfTime.Keyed

variable {α β κ : Type} [DecidableEq κ] {key : α → κ} {combine : α → α → α}

/-- Several items put together in turn, if there are any. -/
def together (combine : α → α → α) : List α → Option α
  | [] => none
  | first :: rest => some (rest.foldl combine first)

omit [DecidableEq κ] in
theorem eraseDups_concat [BEq κ] [LawfulBEq κ] (keys : List κ) (last : κ) :
    (keys ++ [last]).eraseDups =
      if keys.contains last then keys.eraseDups else keys.eraseDups ++ [last] := by
  rw [List.eraseDups_append]
  by_cases known : last ∈ keys
  · simp [List.removeAll, known]
  · simp [List.removeAll, known, List.eraseDups_cons]

omit [DecidableEq κ] in
theorem nodup_eraseDups [BEq κ] [LawfulBEq κ] (keys : List κ) : keys.eraseDups.Nodup := by
  induction keys using List.reverseRecOn with
  | nil =>
      exact List.nodup_nil
  | append_singleton keys last inductionHypothesis =>
      rw [eraseDups_concat]
      split_ifs with known
      · exact inductionHypothesis
      · have fresh : last ∉ keys.eraseDups := by
          rwa [List.mem_eraseDups, ← List.contains_iff_mem]
        refine List.nodup_append.2 ⟨inductionHypothesis, by simp, ?_⟩
        rintro key member other isLast rfl
        exact fresh (List.mem_singleton.1 isLast ▸ member)

theorem map_key_put (law : Lawful key combine) (incoming : α) (items : List α) :
    (put key combine incoming items).map key =
      if key incoming ∈ items.map key then
        items.map key
      else
        items.map key ++ [key incoming] := by
  induction items with
  | nil =>
      simp [put]
  | cons item rest inductionHypothesis =>
      by_cases same : key item = key incoming
      · simp [put, same, law.key_combine]
      · have other : key incoming ≠ key item := Ne.symm same
        rw [put, if_neg same, List.map_cons, inductionHypothesis]
        by_cases later : key incoming ∈ rest.map key
        · simp [later, -List.mem_map]
        · simp [later, other, -List.mem_map]

/-- There is one item for each key, in the order of the first items of the keys. -/
theorem map_key_putAll [BEq κ] [LawfulBEq κ] (law : Lawful key combine)
    (incoming : List α) :
    (putAll key combine [] incoming).map key = (incoming.map key).eraseDups := by
  induction incoming using List.reverseRecOn with
  | nil =>
      rfl
  | append_singleton incoming last inductionHypothesis =>
      rw [putAll_append, putAll_cons, putAll_nil, map_key_put law, inductionHypothesis,
        List.map_append, List.map_singleton, eraseDups_concat]
      simp only [List.mem_eraseDups, List.contains_iff_mem]

/-- Every key has one item. -/
theorem nodup_keys_collected (law : Lawful key combine) (incoming : List α) :
    ((putAll key combine [] incoming).map key).Nodup := by
  have none : (([] : List α).map key).Nodup := List.nodup_nil
  exact nodup_keys_putAll law incoming none

theorem together_concat (items : List α) (last : α) :
    together combine (items ++ [last]) =
      some ((together combine items).elim last fun item => combine item last) := by
  cases items with
  | nil =>
      rfl
  | cons first rest =>
      rw [List.cons_append, together, List.foldl_append]
      rfl

/-- The item of a key is what the items of that key make together. -/
theorem find?_putAll (law : Lawful key combine) (incoming : List α) (wanted : κ) :
    (putAll key combine [] incoming).find? (fun item => key item = wanted) =
      together combine (incoming.filter fun item => key item = wanted) := by
  induction incoming using List.reverseRecOn with
  | nil =>
      rfl
  | append_singleton incoming last inductionHypothesis =>
      rw [putAll_append, putAll_cons, putAll_nil, find?_put law, inductionHypothesis,
        List.filter_append]
      by_cases here : key last = wanted
      · simp [here, together_concat]
      · simp [here]

theorem find?_of_mem {items : List α} (distinct : (items.map key).Nodup) {item : α}
    (member : item ∈ items) :
    items.find? (fun other => key other = key item) = some item := by
  induction items with
  | nil =>
      cases member
  | cons first rest inductionHypothesis =>
      obtain ⟨fresh, restDistinct⟩ := List.nodup_cons.1 distinct
      rcases List.mem_cons.1 member with rfl | later
      · simp
      · have other : key first ≠ key item := by
          intro same
          exact fresh (same ▸ List.mem_map_of_mem later)
        rw [List.find?_cons_of_neg (by simpa using other)]
        exact inductionHypothesis restDistinct later

theorem together_of_mem (law : Lawful key combine) {incoming : List α} {item : α}
    (member : item ∈ putAll key combine [] incoming) :
    together combine (incoming.filter fun other => key other = key item) = some item := by
  rw [← find?_putAll law]
  exact find?_of_mem (nodup_keys_collected law incoming) member

theorem put_of_absorbed {incoming : α} {items : List α}
    (absorbed : ∃ item ∈ items, key item = key incoming)
    (unchanged : ∀ item ∈ items, key item = key incoming → combine item incoming = item) :
    put key combine incoming items = items := by
  induction items with
  | nil =>
      obtain ⟨item, member, -⟩ := absorbed
      cases member
  | cons first rest inductionHypothesis =>
      by_cases same : key first = key incoming
      · rw [put, if_pos same, unchanged first List.mem_cons_self same]
      · rw [put, if_neg same]
        refine congrArg (first :: ·) (inductionHypothesis ?_ fun item member =>
          unchanged item (List.mem_cons_of_mem _ member))
        obtain ⟨item, member, sameKey⟩ := absorbed
        rcases List.mem_cons.1 member with rfl | later
        · exact absurd sameKey same
        · exact ⟨item, later, sameKey⟩

omit [DecidableEq κ] in
theorem key_ne_of_mem_map {items : List α} {wanted : κ} (fresh : wanted ∉ items.map key)
    {item : α} (member : item ∈ items) : key item ≠ wanted := by
  intro same
  exact fresh (same ▸ List.mem_map_of_mem member)

theorem put_append_of_fresh {incoming : α} {items : List α}
    (fresh : key incoming ∉ items.map key) (others : List α) :
    put key combine incoming (items ++ others) = items ++ put key combine incoming others := by
  induction items with
  | nil =>
      rfl
  | cons item items inductionHypothesis =>
      have other := key_ne_of_mem_map fresh List.mem_cons_self
      rw [List.cons_append, put, if_neg other, List.cons_append]
      refine congrArg (item :: ·) (inductionHypothesis ?_)
      rw [List.map_cons] at fresh
      exact List.not_mem_of_not_mem_cons fresh

/-- Items of new keys are put together among themselves. -/
theorem putAll_append_of_fresh {incoming items : List α}
    (fresh : ∀ item ∈ incoming, key item ∉ items.map key) (others : List α) :
    putAll key combine (items ++ others) incoming =
      items ++ putAll key combine others incoming := by
  induction incoming generalizing others with
  | nil =>
      rfl
  | cons first rest inductionHypothesis =>
      obtain ⟨firstFresh, restFresh⟩ := List.forall_mem_cons.1 fresh
      rw [putAll_cons, put_append_of_fresh firstFresh, inductionHypothesis restFresh,
        putAll_cons]

/-- Items of different new keys are put behind the others as they are. -/
theorem putAll_of_nodup {incoming items : List α}
    (distinct : ((items ++ incoming).map key).Nodup) :
    putAll key combine items incoming = items ++ incoming := by
  induction incoming generalizing items with
  | nil =>
      rw [putAll_nil, List.append_nil]
  | cons first rest inductionHypothesis =>
      have fresh : key first ∉ items.map key := by
        intro known
        rw [List.map_append, List.nodup_append] at distinct
        exact distinct.2.2 _ known _ List.mem_cons_self rfl
      have added : put key combine first items = items ++ [first] := by
        have atEnd : put key combine first (items ++ []) = items ++ [first] :=
          put_append_of_fresh fresh []
        rwa [List.append_nil] at atEnd
      have split : items ++ first :: rest = items ++ [first] ++ rest := by simp
      rw [split] at distinct ⊢
      rw [putAll_cons, added, inductionHypothesis distinct]

/-- Items of one key make one item. -/
theorem putAll_singleton_of_same_key (law : Lawful key combine) {first : α} {rest : List α}
    (same : ∀ item ∈ rest, key first = key item) :
    putAll key combine [first] rest = [rest.foldl combine first] := by
  induction rest generalizing first with
  | nil =>
      rfl
  | cons next rest inductionHypothesis =>
      obtain ⟨nextSame, restSame⟩ := List.forall_mem_cons.1 same
      rw [putAll_cons, put, if_pos nextSame, List.foldl_cons]
      apply inductionHypothesis
      intro item member
      rw [law.key_combine]
      exact restSame item member

/-- What items hold is neither lost nor doubled when they are put into others. -/
theorem flatMap_put_perm {contents : α → List β}
    (additive : ∀ item incoming, key item = key incoming →
      (contents (combine item incoming)).Perm (contents item ++ contents incoming))
    (incoming : α) (items : List α) :
    ((put key combine incoming items).flatMap contents).Perm
      (items.flatMap contents ++ contents incoming) := by
  induction items with
  | nil =>
      simp [put]
  | cons item rest inductionHypothesis =>
      by_cases same : key item = key incoming
      · rw [put, if_pos same, List.flatMap_cons, List.flatMap_cons, List.append_assoc]
        refine ((additive item incoming same).append_right _).trans ?_
        rw [List.append_assoc]
        exact List.Perm.append_left _ List.perm_append_comm
      · rw [put, if_neg same, List.flatMap_cons, List.flatMap_cons, List.append_assoc]
        exact inductionHypothesis.append_left _

theorem flatMap_putAll_perm {contents : α → List β}
    (additive : ∀ item incoming, key item = key incoming →
      (contents (combine item incoming)).Perm (contents item ++ contents incoming))
    (incoming : List α) :
    ((putAll key combine [] incoming).flatMap contents).Perm (incoming.flatMap contents) := by
  induction incoming using List.reverseRecOn with
  | nil =>
      exact List.Perm.refl _
  | append_singleton incoming last inductionHypothesis =>
      rw [putAll_append, putAll_cons, putAll_nil, List.flatMap_append, List.flatMap_singleton]
      exact (flatMap_put_perm additive last _).trans (inductionHypothesis.append_right _)

end AheadOfTime.Keyed
