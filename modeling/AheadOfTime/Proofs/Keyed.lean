import Mathlib.Data.List.Induction

/-!
# Lists with one item for each key

An item is put into the item that has its key, or at the end when none has.  The
first item to bring a key fixes its place.  Putting a list in that was put together
itself is putting its parts in one by one: this is the main statement,
`putAll_putAll`.
-/

namespace AheadOfTime.Keyed

variable {α κ : Type} [DecidableEq κ]

/-- Items after one more: combined with the item of the same key, or at the end. -/
def put (key : α → κ) (combine : α → α → α) (incoming : α) : List α → List α
  | [] => [incoming]
  | item :: rest =>
      if key item = key incoming then
        combine item incoming :: rest
      else
        item :: put key combine incoming rest

def putAll (key : α → κ) (combine : α → α → α) (items incoming : List α) : List α :=
  incoming.foldl (fun items item => put key combine item items) items

/-- Combining keeps the key, and does not depend on how items are grouped. -/
structure Lawful (key : α → κ) (combine : α → α → α) : Prop where
  key_combine : ∀ item incoming, key (combine item incoming) = key item
  assoc : ∀ first second third,
    combine (combine first second) third = combine first (combine second third)

/-- The order of two incoming items does not matter to an item that takes both. -/
def Exchangeable (combine : α → α → α) (first second : α) : Prop :=
  ∀ item, combine (combine item first) second = combine (combine item second) first

variable {key : α → κ} {combine : α → α → α}

@[simp]
theorem putAll_nil (items : List α) : putAll key combine items [] = items :=
  rfl

@[simp]
theorem putAll_cons (items : List α) (item : α) (incoming : List α) :
    putAll key combine items (item :: incoming) =
      putAll key combine (put key combine item items) incoming :=
  rfl

theorem putAll_append (items first second : List α) :
    putAll key combine items (first ++ second) =
      putAll key combine (putAll key combine items first) second := by
  simp [putAll, List.foldl_append]

theorem mem_keys_put (law : Lawful key combine) (incoming : α) (items : List α)
    (wanted : κ) :
    wanted ∈ (put key combine incoming items).map key ↔
      wanted = key incoming ∨ wanted ∈ items.map key := by
  induction items with
  | nil =>
      simp [put]
  | cons item rest inductionHypothesis =>
      by_cases same : key item = key incoming
      · rw [put, if_pos same, List.map_cons, List.map_cons, List.mem_cons, List.mem_cons,
          law.key_combine, same, or_self_left]
      · rw [put, if_neg same, List.map_cons, List.map_cons, List.mem_cons, List.mem_cons,
          inductionHypothesis, or_left_comm]

theorem nodup_keys_put (law : Lawful key combine) (incoming : α) {items : List α}
    (distinct : (items.map key).Nodup) :
    ((put key combine incoming items).map key).Nodup := by
  induction items with
  | nil =>
      simp [put]
  | cons item rest inductionHypothesis =>
      rw [List.map_cons, List.nodup_cons] at distinct
      by_cases same : key item = key incoming
      · rw [put, if_pos same, List.map_cons, List.nodup_cons, law.key_combine]
        exact distinct
      · rw [put, if_neg same, List.map_cons, List.nodup_cons, mem_keys_put law]
        refine ⟨?_, inductionHypothesis distinct.2⟩
        rintro (equal | member)
        · exact same equal
        · exact distinct.1 member

theorem nodup_keys_putAll (law : Lawful key combine) (incoming : List α) {items : List α}
    (distinct : (items.map key).Nodup) :
    ((putAll key combine items incoming).map key).Nodup := by
  induction incoming generalizing items with
  | nil =>
      exact distinct
  | cons first incoming inductionHypothesis =>
      exact inductionHypothesis (nodup_keys_put law first distinct)

theorem find?_put (law : Lawful key combine) (incoming : α) (items : List α) (wanted : κ) :
    (put key combine incoming items).find? (fun item => key item = wanted) =
      if key incoming = wanted then
        some ((items.find? fun item => key item = wanted).elim incoming
          fun item => combine item incoming)
      else
        items.find? fun item => key item = wanted := by
  induction items with
  | nil =>
      by_cases here : key incoming = wanted <;> simp [put, here]
  | cons item rest inductionHypothesis =>
      by_cases same : key item = key incoming
      · by_cases here : key incoming = wanted
        · simp [put, same, here, law.key_combine]
        · simp [put, same, here, law.key_combine]
      · by_cases found : key item = wanted
        · have away : key incoming ≠ wanted := fun here => same (found.trans here.symm)
          rw [put, if_neg same, List.find?_cons_of_pos (by simpa using found), if_neg away,
            List.find?_cons_of_pos (by simpa using found)]
        · simp only [put, if_neg same, List.find?_cons, found, decide_false,
            inductionHypothesis]

section Positions

variable [BEq κ] [LawfulBEq κ]

omit [DecidableEq κ] in
/-- Looking a key up among keys and their positions finds its first position. -/
theorem lookup_zipIdx (keys : List κ) (first : Nat) (wanted : κ) :
    (keys.zipIdx first).lookup wanted = (keys.idxOf? wanted).map (· + first) := by
  induction keys generalizing first with
  | nil =>
      rfl
  | cons known keys inductionHypothesis =>
      rw [List.zipIdx_cons, List.lookup_cons, List.idxOf?_cons, inductionHypothesis]
      by_cases same : known = wanted
      · rw [if_pos (beq_iff_eq.2 same), beq_iff_eq.2 same.symm, Option.map_some, Nat.zero_add]
      · rw [if_neg fun equal => same (beq_iff_eq.1 equal), beq_eq_false_iff_ne.2 (Ne.symm same),
          Option.map_map]
        refine congrArg (fun move => (keys.idxOf? wanted).map move) (funext fun position => ?_)
        exact (Nat.succ_add_eq_add_succ position first).symm

omit [DecidableEq κ] in
/-- Where keys are different, a key has just the position that it is found at. -/
theorem idxOf?_eq_some_iff_of_nodup {keys : List κ} (distinct : keys.Nodup) {wanted : κ}
    {position : Nat} : keys.idxOf? wanted = some position ↔ keys[position]? = some wanted := by
  induction keys generalizing position with
  | nil =>
      exact ⟨nofun, nofun⟩
  | cons known keys inductionHypothesis =>
      obtain ⟨fresh, distinctLater⟩ := List.nodup_cons.1 distinct
      rw [List.idxOf?_cons]
      cases position with
      | zero =>
          rw [List.getElem?_cons_zero, Option.some.injEq]
          by_cases same : known = wanted
          · rw [if_pos (beq_iff_eq.2 same)]
            exact iff_of_true rfl same
          · rw [if_neg fun equal => same (beq_iff_eq.1 equal)]
            refine iff_of_false (fun first => ?_) same
            obtain ⟨_, _, impossible⟩ := Option.map_eq_some_iff.1 first
            cases impossible
      | succ position =>
          rw [List.getElem?_cons_succ, ← inductionHypothesis distinctLater]
          by_cases same : known = wanted
          · rw [if_pos (beq_iff_eq.2 same), inductionHypothesis distinctLater]
            refine iff_of_false nofun fun later => fresh ?_
            rw [same]
            exact List.mem_of_getElem? later
          · rw [if_neg fun equal => same (beq_iff_eq.1 equal)]
            simp

/-- An item is put at the position of its key, or at the end. -/
theorem put_eq_modify (incoming : α) (items : List α) :
    put key combine incoming items =
      match (items.map key).idxOf? (key incoming) with
      | some position => items.modify position fun item => combine item incoming
      | none => items ++ [incoming] := by
  induction items with
  | nil =>
      rfl
  | cons item rest inductionHypothesis =>
      rw [put, List.map_cons, List.idxOf?_cons]
      by_cases same : key item = key incoming
      · rw [if_pos same, if_pos (beq_iff_eq.2 same)]
        rfl
      · rw [if_neg same, if_neg fun equal => same (beq_iff_eq.1 equal), inductionHypothesis]
        cases (rest.map key).idxOf? (key incoming) with
        | none =>
            rfl
        | some position =>
            rfl

/-- What stands at the position of a key is the first item with it. -/
theorem getElem?_idxOf? (items : List α) (wanted : κ) :
    (((items.map key).idxOf? wanted).bind fun position => items[position]?) =
      items.find? fun item => key item = wanted := by
  induction items with
  | nil =>
      rfl
  | cons item rest inductionHypothesis =>
      rw [List.map_cons, List.idxOf?_cons, List.find?_cons, ← inductionHypothesis]
      by_cases same : key item = wanted
      · rw [if_pos (beq_iff_eq.2 same), decide_eq_true same]
        rfl
      · rw [if_neg fun equal => same (beq_iff_eq.1 equal), decide_eq_false same,
          Option.bind_map]
        rfl

end Positions

/-! ## Items that stay in place -/

/-- Whether every item of a list stands at its position in another list, as an item that
it is related to. -/
def StaysIn (related : α → α → Prop) (before after : List α) : Prop :=
  ∀ (position : Nat) (item : α), before[position]? = some item →
    ∃ later, after[position]? = some later ∧ related item later

variable {related : α → α → Prop}

theorem StaysIn.trans
    (relatedTrans : ∀ first second third, related first second → related second third →
      related first third)
    {before between after : List α} (first : StaysIn related before between)
    (second : StaysIn related between after) : StaysIn related before after := by
  intro position item found
  obtain ⟨middle, middleFound, toMiddle⟩ := first position item found
  obtain ⟨later, laterFound, toLater⟩ := second position middle middleFound
  exact ⟨later, laterFound, relatedTrans _ _ _ toMiddle toLater⟩

/-- Putting an item in moves no other, when an item is related to what it becomes by
combination. -/
theorem staysIn_put (relatedRefl : ∀ item, related item item)
    (combined : ∀ item incoming, related item (combine item incoming)) (incoming : α)
    (items : List α) : StaysIn related items (put key combine incoming items) := by
  induction items with
  | nil =>
      intro position item found
      cases found
  | cons first rest inductionHypothesis =>
      intro position item found
      by_cases same : key first = key incoming
      · rw [put, if_pos same]
        cases position with
        | zero =>
            obtain rfl := Option.some.inj found
            exact ⟨combine first incoming, rfl, combined first incoming⟩
        | succ position =>
            exact ⟨item, found, relatedRefl item⟩
      · rw [put, if_neg same]
        cases position with
        | zero =>
            exact ⟨item, found, relatedRefl item⟩
        | succ position =>
            exact inductionHypothesis position item found

theorem staysIn_putAll (relatedRefl : ∀ item, related item item)
    (relatedTrans : ∀ first second third, related first second → related second third →
      related first third)
    (combined : ∀ item incoming, related item (combine item incoming)) (incoming : List α)
    (items : List α) : StaysIn related items (putAll key combine items incoming) := by
  induction incoming generalizing items with
  | nil =>
      exact fun position item found => ⟨item, found, relatedRefl item⟩
  | cons first incoming inductionHypothesis =>
      exact (staysIn_put relatedRefl combined first items).trans relatedTrans
        (inductionHypothesis _)

theorem put_put_of_key_eq (law : Lawful key combine) {first second : α}
    (same : key second = key first) (items : List α) :
    put key combine second (put key combine first items) =
      put key combine (combine first second) items := by
  induction items with
  | nil =>
      simp [put, same]
  | cons item rest inductionHypothesis =>
      by_cases here : key item = key first
      · simp [put, here, same, law.key_combine, law.assoc]
      · simp [put, here, same, law.key_combine, inductionHypothesis]

/-- An item whose key is known already may be put in later. -/
theorem put_comm (law : Lawful key combine) {first second : α}
    (free : key second ≠ key first ∨ Exchangeable combine first second) {items : List α}
    (known : key first ∈ items.map key) :
    put key combine second (put key combine first items) =
      put key combine first (put key combine second items) := by
  induction items with
  | nil =>
      cases known
  | cons item rest inductionHypothesis =>
      by_cases isFirst : key item = key first
      · by_cases isSecond : key item = key second
        · have exchangeable : Exchangeable combine first second :=
            free.resolve_left fun different => different (isSecond.symm.trans isFirst)
          simp only [put, law.key_combine, if_pos isFirst, if_pos isSecond, exchangeable item]
        · simp only [put, law.key_combine, if_pos isFirst, if_neg isSecond]
      · have knownLater : key first ∈ rest.map key := by
          rw [List.map_cons, List.mem_cons] at known
          exact known.resolve_left fun equal => isFirst equal.symm
        by_cases isSecond : key item = key second
        · simp only [put, law.key_combine, if_neg isFirst, if_pos isSecond]
        · simp only [put, if_neg isFirst, if_neg isSecond, inductionHypothesis knownLater]

/-- An item whose key is known already may be put in after a whole list, if it may
be exchanged with every item of the list that has its key. -/
theorem putAll_put_comm (law : Lawful key combine) {first : α} {incoming : List α}
    (free : ∀ second ∈ incoming, key second ≠ key first ∨ Exchangeable combine first second)
    {items : List α} (known : key first ∈ items.map key) :
    putAll key combine (put key combine first items) incoming =
      put key combine first (putAll key combine items incoming) := by
  induction incoming generalizing items with
  | nil =>
      rfl
  | cons second incoming inductionHypothesis =>
      have knownAfter : key first ∈ (put key combine second items).map key :=
        (mem_keys_put law second items (key first)).2 (Or.inr known)
      rw [putAll_cons, putAll_cons, put_comm law (free second List.mem_cons_self) known]
      exact inductionHypothesis
        (fun later member => free later (List.mem_cons_of_mem _ member)) knownAfter

/-- Putting in a list that one more item was put into is putting in the list, then
that item. Items that cannot be exchanged need distinct keys for this. -/
theorem putAll_put (law : Lawful key combine) (incoming : α) {items : List α}
    (free : (items.map key).Nodup ∨ ∀ first second, Exchangeable combine first second)
    (known : List α) :
    putAll key combine known (put key combine incoming items) =
      put key combine incoming (putAll key combine known items) := by
  induction items generalizing known with
  | nil =>
      rfl
  | cons item rest inductionHypothesis =>
      have freeLater :
          (rest.map key).Nodup ∨ ∀ first second, Exchangeable combine first second :=
        free.imp_left fun distinct => (List.nodup_cons.1 distinct).2
      by_cases same : key item = key incoming
      -- The item takes the incoming one with it, so this has to move past the others.
      · have pass : ∀ later ∈ rest,
            key later ≠ key incoming ∨ Exchangeable combine incoming later := by
          intro later member
          refine free.imp (fun distinct equal => ?_) fun exchangeable => exchangeable _ _
          refine (List.nodup_cons.1 distinct).1 ?_
          exact List.mem_map.2 ⟨later, member, equal.trans same.symm⟩
        have placed : key incoming ∈ (put key combine item known).map key :=
          (mem_keys_put law item known (key incoming)).2 (Or.inl same.symm)
        rw [put, if_pos same, putAll_cons, putAll_cons,
          ← put_put_of_key_eq law same.symm known]
        exact putAll_put_comm law pass placed
      · rw [put, if_neg same, putAll_cons, putAll_cons]
        exact inductionHypothesis freeLater _

/-- Putting in what was put together is putting in its parts in turn. -/
theorem putAll_putAll (law : Lawful key combine) {items : List α}
    (free : (items.map key).Nodup ∨ ∀ first second, Exchangeable combine first second)
    (known incoming : List α) :
    putAll key combine known (putAll key combine items incoming) =
      putAll key combine (putAll key combine known items) incoming := by
  induction incoming using List.reverseRecOn with
  | nil =>
      rfl
  | append_singleton incoming last inductionHypothesis =>
      have freeBefore :
          ((putAll key combine items incoming).map key).Nodup ∨
            ∀ first second, Exchangeable combine first second :=
        free.imp_left (nodup_keys_putAll law incoming)
      rw [putAll_append, putAll_append, putAll_cons, putAll_nil, putAll_cons, putAll_nil,
        putAll_put law last freeBefore known, inductionHypothesis]

end AheadOfTime.Keyed
