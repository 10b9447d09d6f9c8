import Mathlib.Data.List.Nodup
import AheadOfTime.Proofs.TypeName.Candidates

/-!
# Histories of requests

Every request ends: its search passes candidates that are taken until one is free or is no
name.  Over a history of requests the issued names are those granted, no name twice, and a
stem's number never passes a candidate that was not issued, nor the number of requests.
-/

namespace AheadOfTime

namespace IssuedNames

/-- How a search goes on from the number it reached: it ends at the next candidate if that is
no name or free, and passes it if it is taken. -/
inductive Finds (taken : List TypeName) (candidates : Nat → Except TypeNameError TypeName) :
    Nat → Except TypeNameError TypeName → Nat → Prop where
  | refused {reached : Nat} {error : TypeNameError}
      (noName : candidates (reached + 1) = .error error) :
      Finds taken candidates reached (.error error) (reached + 1)
  | free {reached : Nat} {name : TypeName} (reads : candidates (reached + 1) = .ok name)
      (untaken : name ∉ taken) :
      Finds taken candidates reached (.ok name) (reached + 1)
  | passed {reached number : Nat} {name : TypeName} {answer : Except TypeNameError TypeName}
      (reads : candidates (reached + 1) = .ok name) (isTaken : name ∈ taken)
      (later : Finds taken candidates (reached + 1) answer number) :
      Finds taken candidates reached answer number

section Search

variable {taken : List TypeName} {candidates : Nat → Except TypeNameError TypeName}
  {reached number : Nat} {answer : Except TypeNameError TypeName}

theorem Finds.above (finds : Finds taken candidates reached answer number) :
    reached < number := by
  induction finds with
  | refused noName =>
      exact Nat.lt_succ_self _
  | free reads untaken =>
      exact Nat.lt_succ_self _
  | passed reads isTaken later inductionHypothesis =>
      exact Nat.lt_of_succ_lt inductionHypothesis

theorem Finds.answer_eq (finds : Finds taken candidates reached answer number) :
    candidates number = answer := by
  induction finds with
  | refused noName =>
      exact noName
  | free reads untaken =>
      exact reads
  | passed reads isTaken later inductionHypothesis =>
      exact inductionHypothesis

theorem Finds.not_mem_taken (finds : Finds taken candidates reached answer number)
    {name : TypeName} (granted : answer = .ok name) : name ∉ taken := by
  induction finds with
  | refused noName =>
      cases granted
  | free reads untaken =>
      cases granted
      exact untaken
  | passed reads isTaken later inductionHypothesis =>
      exact inductionHypothesis granted

/-- The candidates that a search passes are taken names. -/
theorem Finds.exists_taken (finds : Finds taken candidates reached answer number)
    {between : Nat} (low : reached < between) (high : between < number) :
    ∃ name ∈ taken, candidates between = .ok name := by
  induction finds with
  | refused noName =>
      omega
  | free reads untaken =>
      omega
  | @passed reached number name answer reads isTaken later inductionHypothesis =>
      by_cases next : between = reached + 1
      · rw [next]
        exact ⟨name, isTaken, reads⟩
      · exact inductionHypothesis (by omega) high

/-- A search ends where it says if it has tries enough to get to the end. -/
theorem finds_search {tries : Nat}
    (ends : ∃ offset, offset ≤ tries ∧
      ∀ name, candidates (reached + 1 + offset) = .ok name → name ∉ taken) :
    Finds taken candidates reached (search taken candidates tries reached).1
      (search taken candidates tries reached).2 := by
  have here : (∀ name, candidates (reached + 1) = .ok name → name ∉ taken) →
      Finds taken candidates reached (candidates (reached + 1)) (reached + 1) := by
    intro untaken
    cases reads : candidates (reached + 1) with
    | error error =>
        exact .refused reads
    | ok name =>
        exact .free reads (untaken name reads)
  induction tries generalizing reached with
  | zero =>
      obtain ⟨offset, bound, untaken⟩ := ends
      rw [Nat.le_zero.1 bound] at untaken
      exact here untaken
  | succ tries inductionHypothesis =>
      rw [search]
      cases reads : candidates (reached + 1) with
      | error error =>
          exact .refused reads
      | ok name =>
          simp only
          by_cases isTaken : name ∈ taken
          · rw [if_pos (List.contains_iff_mem.2 isTaken)]
            refine .passed reads isTaken (inductionHypothesis ?_ ?_)
            · obtain ⟨offset, bound, untaken⟩ := ends
              cases offset with
              | zero =>
                  exact absurd isTaken (untaken name reads)
              | succ offset =>
                  refine ⟨offset, Nat.le_of_succ_le_succ bound, ?_⟩
                  rwa [Nat.add_assoc (reached + 1), Nat.add_comm 1 offset]
            · intro untaken
              cases readsNext : candidates (reached + 1 + 1) with
              | error error =>
                  exact .refused readsNext
              | ok next =>
                  exact .free readsNext (untaken next readsNext)
          · rw [if_neg fun contained => isTaken (List.contains_iff_mem.1 contained)]
            exact .free reads isTaken

end Search

/-- What a name is asked for with. -/
structure Request where
  base : TypeName
  feature : String
  deriving DecidableEq

namespace Request

/-- What the number of a request's stem is kept under. -/
def key (request : Request) : String :=
  counterKey request.base request.feature

def candidate (request : Request) : Nat → Except TypeNameError TypeName :=
  IssuedNames.candidate request.base request.feature

theorem number_eq_of_candidate_eq_ok {request : Request} {first second : Nat}
    {name : TypeName} (isFirst : request.candidate first = .ok name)
    (isSecond : request.candidate second = .ok name) : first = second :=
  IssuedNames.number_eq_of_candidate_eq_ok isFirst isSecond

/-- The candidate with a number, or the number where its candidate is no name, so that
different numbers have different labels. -/
def label (request : Request) (number : Nat) : TypeName ⊕ Nat :=
  match request.candidate number with
  | .ok name => .inl name
  | .error _ => .inr number

theorem label_eq_inl_iff {request : Request} {number : Nat} {name : TypeName} :
    request.label number = .inl name ↔ request.candidate number = .ok name := by
  rw [label]
  cases request.candidate number with
  | error error =>
      constructor
      · intro same
        cases same
      · intro same
        cases same
  | ok other =>
      constructor
      · intro same
        rw [Sum.inl.inj same]
      · intro same
        rw [Except.ok.inj same]

theorem number_eq_of_label_eq {request : Request} {first second : Nat}
    (same : request.label first = request.label second) : first = second := by
  cases isFirst : request.candidate first with
  | ok name =>
      have isSecond : request.label second = .inl name :=
        same.symm.trans (label_eq_inl_iff.2 isFirst)
      exact number_eq_of_candidate_eq_ok isFirst (label_eq_inl_iff.1 isSecond)
  | error error =>
      cases isSecond : request.candidate second with
      | ok name =>
          simp only [label, isFirst, isSecond] at same
          cases same
      | error other =>
          simp only [label, isFirst, isSecond] at same
          exact Sum.inr.inj same

theorem candidate_of_key {request other : Request} (same : request.key = other.key)
    (number : Nat) (name : TypeName) :
    request.candidate number = .ok name ↔ other.candidate number = .ok name :=
  candidate_of_counterKey same number name

end Request

def answer (issued : IssuedNames) (request : Request) :
    Except TypeNameError TypeName × IssuedNames :=
  issued.issue request.base request.feature

def granted (answers : List (Except TypeNameError TypeName)) : List TypeName :=
  answers.filterMap Except.toOption

theorem answer_of_search {issued : IssuedNames} {request : Request}
    {found : Except TypeNameError TypeName} {number : Nat}
    (searched : search issued.names request.candidate issued.size
      (issued.counter request.key) = (found, number)) :
    issued.answer request =
      (found, ⟨issued.names ++ granted [found],
        setCounter request.key number issued.counters⟩) := by
  rw [Request.candidate, Request.key] at searched
  simp only [answer, issue, searched]
  cases found with
  | error error =>
      rw [granted, List.filterMap_cons_none (by rfl), List.filterMap_nil, List.append_nil]
      rfl
  | ok name =>
      rfl

section Granted

variable {taken : List TypeName} {candidates : Nat → Except TypeNameError TypeName}
  {reached number : Nat} {found : Except TypeNameError TypeName}

/-- A search grants a name that has not been taken, if any. -/
theorem Finds.nodup_append_granted (finds : Finds taken candidates reached found number)
    (distinct : taken.Nodup) : (taken ++ granted [found]).Nodup := by
  cases found with
  | error error =>
      rw [granted, List.filterMap_cons_none (by rfl), List.filterMap_nil, List.append_nil]
      exact distinct
  | ok name =>
      refine List.nodup_append.2 ⟨distinct, List.nodup_singleton name, ?_⟩
      intro other isOther new isNew same
      rw [List.mem_singleton.1 isNew] at same
      rw [same] at isOther
      exact finds.not_mem_taken rfl isOther

/-- Every name that a search has looked at is taken or granted. -/
theorem Finds.mem_append_granted (finds : Finds taken candidates reached found number)
    {earlier : Nat} (above : reached < earlier) (low : earlier ≤ number) {name : TypeName}
    (reads : candidates earlier = .ok name) : name ∈ taken ++ granted [found] := by
  by_cases last : earlier = number
  · have isFound : found = .ok name := by
      rw [← finds.answer_eq, ← last]
      exact reads
    rw [isFound]
    exact List.mem_append_right _ List.mem_cons_self
  · obtain ⟨passed, isTaken, readsPassed⟩ :=
      finds.exists_taken above (Nat.lt_of_le_of_ne low last)
    rw [reads] at readsPassed
    rw [Except.ok.inj readsPassed]
    exact List.mem_append_left _ isTaken

end Granted

/-- Every search ends, and the state afterwards is told by its end. -/
theorem exists_finds (issued : IssuedNames) (request : Request) :
    ∃ found number,
      Finds issued.names request.candidate (issued.counter request.key) found number ∧
      issued.answer request =
        (found, ⟨issued.names ++ granted [found],
          setCounter request.key number issued.counters⟩) := by
  obtain ⟨offset, bound, free⟩ :=
    Numbering.exists_free
      (fun offset => request.label (issued.counter request.key + 1 + offset))
      (fun first second same => by
        have numbers := Request.number_eq_of_label_eq same
        omega)
      (issued.names.map Sum.inl)
  rw [List.length_map] at bound
  refine ⟨_, _, finds_search ⟨offset, bound, fun name reads isTaken => free ?_⟩,
    answer_of_search rfl⟩
  exact List.mem_map.2 ⟨name, isTaken, (Request.label_eq_inl_iff.2 reads).symm⟩

theorem counter_setCounter (names : List TypeName) (counters : List (String × Nat))
    (key other : String) (count : Nat) :
    (⟨names, setCounter key count counters⟩ : IssuedNames).counter other =
      if other = key then count else (⟨names, counters⟩ : IssuedNames).counter other := by
  simp only [counter]
  induction counters with
  | nil =>
      rw [setCounter, List.lookup_cons]
      by_cases same : other = key
      · rw [if_pos same, beq_iff_eq.2 same]
        rfl
      · rw [if_neg same, beq_eq_false_iff_ne.2 same]
  | cons entry counters inductionHypothesis =>
      obtain ⟨known, reached⟩ := entry
      rw [setCounter]
      by_cases isKnown : known = key
      · rw [if_pos isKnown, List.lookup_cons, List.lookup_cons, isKnown]
        by_cases same : other = key
        · rw [if_pos same, beq_iff_eq.2 same]
          rfl
        · rw [if_neg same, beq_eq_false_iff_ne.2 same]
      · rw [if_neg isKnown, List.lookup_cons, List.lookup_cons]
        by_cases here : other = known
        · have different : other ≠ key := fun same => isKnown (here.symm.trans same)
          rw [beq_iff_eq.2 here, if_neg different]
        · rw [beq_eq_false_iff_ne.2 here]
          exact inductionHypothesis

/-! ## Histories -/

/-- Answer requests one after the other. -/
def serve (issued : IssuedNames) :
    List Request → List (Except TypeNameError TypeName) × IssuedNames
  | [] => ([], issued)
  | request :: requests =>
      let (found, issued) := issued.answer request
      let (answers, issued) := serve issued requests
      (found :: answers, issued)

theorem serve_append (issued : IssuedNames) (first second : List Request) :
    issued.serve (first ++ second) =
      ((issued.serve first).1 ++ ((issued.serve first).2.serve second).1,
        ((issued.serve first).2.serve second).2) := by
  induction first generalizing issued with
  | nil =>
      rfl
  | cons request first inductionHypothesis =>
      simp only [List.cons_append, serve, inductionHypothesis]

theorem length_serve (issued : IssuedNames) (requests : List Request) :
    (issued.serve requests).1.length = requests.length := by
  induction requests generalizing issued with
  | nil =>
      rfl
  | cons request requests inductionHypothesis =>
      exact congrArg Nat.succ (inductionHypothesis (issued.answer request).2)

def after (requests : List Request) : IssuedNames :=
  (empty.serve requests).2

def answers (requests : List Request) : List (Except TypeNameError TypeName) :=
  (empty.serve requests).1

theorem after_concat (requests : List Request) (request : Request) :
    after (requests ++ [request]) = ((after requests).answer request).2 := by
  rw [after, serve_append]
  rfl

/-- How many numbers up to one have a candidate that is no name. -/
def misses (request : Request) (number : Nat) : Nat :=
  (List.range number).countP fun earlier => (request.candidate (earlier + 1)).toOption.isNone

def refusals (answers : List (Except TypeNameError TypeName)) : Nat :=
  answers.countP fun found => found.toOption.isNone

/-- What a history of requests leaves behind: the granted names, none of them twice, and for
each stem a number up to which every candidate that is a name was issued. -/
structure Records (history : List Request) (answers : List (Except TypeNameError TypeName))
    (issued : IssuedNames) : Prop where
  names : issued.names = granted answers
  nodup : issued.names.Nodup
  passed : ∀ (request : Request) (number : Nat) (name : TypeName), 0 < number →
    number ≤ issued.counter request.key → request.candidate number = .ok name →
    name ∈ issued.names
  misses : ∀ request : Request, misses request (issued.counter request.key) ≤ refusals answers
  asked : ∀ request : Request, issued.counter request.key = 0 ↔
    ∀ earlier ∈ history, earlier.key ≠ request.key

theorem misses_of_key {request other : Request} (same : request.key = other.key)
    (number : Nat) : misses request number = misses other number := by
  rw [misses, misses]
  congr 1
  funext earlier
  have both := Request.candidate_of_key same (earlier + 1)
  cases reads : request.candidate (earlier + 1) with
  | ok name =>
      rw [(both name).1 reads]
  | error error =>
      cases readsToo : other.candidate (earlier + 1) with
      | ok name =>
          rw [(both name).2 readsToo] at reads
          cases reads
      | error otherError =>
          rfl

/-- A search adds its own refusal, and no other miss. -/
theorem misses_of_finds {issued : IssuedNames} {request : Request} {reached number : Nat}
    {found : Except TypeNameError TypeName}
    (finds : Finds issued.names request.candidate reached found number) :
    misses request number = misses request reached + refusals [found] := by
  have one : ∀ last : Nat, misses request (last + 1) =
      misses request last + refusals [request.candidate (last + 1)] := by
    intro last
    rw [misses, List.range_succ, List.countP_append]
    rfl
  induction finds with
  | refused noName =>
      rw [one, noName]
  | free reads untaken =>
      rw [one, reads]
  | passed reads isTaken later inductionHypothesis =>
      rw [inductionHypothesis, one, reads]
      rfl

theorem records_nil : Records [] [] empty where
  names := rfl
  nodup := .nil
  passed := fun _ _ _ positive low => absurd positive (Nat.not_lt.2 low)
  misses := fun _ => Nat.le_refl 0
  asked := fun _ => ⟨fun _ => List.forall_mem_nil _, fun _ => rfl⟩

theorem Records.concat {history : List Request}
    {answers : List (Except TypeNameError TypeName)} {issued : IssuedNames}
    (records : Records history answers issued) (request : Request) :
    Records (history ++ [request]) (answers ++ [(issued.answer request).1])
      (issued.answer request).2 := by
  obtain ⟨found, number, finds, ends⟩ := exists_finds issued request
  have counter : ∀ key, (issued.answer request).2.counter key =
      if key = request.key then number else issued.counter key := by
    intro key
    rw [ends]
    exact counter_setCounter _ _ _ _ _
  have names : (issued.answer request).2.names = issued.names ++ granted [found] := by
    rw [ends]
  have answered : (issued.answer request).1 = found := by
    rw [ends]
  refine ⟨?_, ?_, ?_, ?_, ?_⟩
  · rw [names, answered, records.names]
    exact List.filterMap_append.symm
  · rw [names]
    exact finds.nodup_append_granted records.nodup
  · intro other earlier name positive low reads
    rw [names]
    rw [counter] at low
    by_cases same : other.key = request.key
    · rw [if_pos same] at low
      have readsHere := (Request.candidate_of_key same earlier name).1 reads
      by_cases old : earlier ≤ issued.counter request.key
      · exact List.mem_append_left _ (records.passed request earlier name positive old readsHere)
      · exact finds.mem_append_granted (Nat.lt_of_not_le old) low readsHere
    · rw [if_neg same] at low
      exact List.mem_append_left _ (records.passed other earlier name positive low reads)
  · intro other
    rw [counter, answered, refusals, List.countP_append, ← refusals, ← refusals]
    by_cases same : other.key = request.key
    · rw [if_pos same, misses_of_key same, misses_of_finds finds]
      exact Nat.add_le_add_right (records.misses request) _
    · rw [if_neg same]
      exact Nat.le_add_right_of_le (records.misses other)
  · intro other
    rw [counter, List.forall_mem_append, List.forall_mem_singleton, ← records.asked other]
    by_cases same : other.key = request.key
    · rw [if_pos same]
      constructor
      · intro none
        exact absurd finds.above (by omega)
      · intro both
        exact absurd same.symm both.2
    · rw [if_neg same]
      exact ⟨fun zero => ⟨zero, Ne.symm same⟩, fun both => both.1⟩

/-- What one request keeps, a history of requests keeps. -/
theorem Records.append {history : List Request}
    {answers : List (Except TypeNameError TypeName)} {issued : IssuedNames}
    (records : Records history answers issued) (requests : List Request) :
    Records (history ++ requests) (answers ++ (issued.serve requests).1)
      (issued.serve requests).2 := by
  induction requests generalizing history answers issued with
  | nil =>
      rw [List.append_nil, serve, List.append_nil]
      exact records
  | cons request requests inductionHypothesis =>
      have later := inductionHypothesis (records.concat request)
      rw [List.append_assoc, List.append_assoc] at later
      exact later

theorem records_after (requests : List Request) :
    Records requests (answers requests) (after requests) :=
  records_nil.append requests

theorem length_filterMap_add_countP {α β : Type} (f : α → Option β) (items : List α) :
    (items.filterMap f).length + items.countP (fun item => (f item).isNone) = items.length := by
  induction items with
  | nil =>
      rfl
  | cons item items inductionHypothesis =>
      cases found : f item with
      | none =>
          rw [List.filterMap_cons_none found, List.countP_cons_of_pos (by rw [found]; rfl),
            List.length_cons, ← inductionHypothesis, Nat.add_assoc]
      | some other =>
          rw [List.filterMap_cons_some found,
            List.countP_cons_of_neg (by rw [found]; exact Bool.false_ne_true),
            List.length_cons, List.length_cons, ← inductionHypothesis, Nat.add_right_comm]

/-- The number that a stem reached is at most that of the requests. -/
theorem Records.counter_le {history : List Request}
    {answers : List (Except TypeNameError TypeName)} {issued : IssuedNames}
    (records : Records history answers issued) (request : Request) :
    issued.counter request.key ≤ answers.length := by
  let names := (List.range (issued.counter request.key)).filterMap fun earlier =>
    (request.candidate (earlier + 1)).toOption
  have sub : names ⊆ issued.names := by
    intro name member
    obtain ⟨earlier, inRange, isName⟩ := List.mem_filterMap.1 member
    have reads : request.candidate (earlier + 1) = .ok name := by
      cases found : request.candidate (earlier + 1) with
      | error error =>
          rw [found] at isName
          cases isName
      | ok other =>
          rw [found] at isName
          rw [Option.some.inj isName]
    exact records.passed request (earlier + 1) name (Nat.succ_pos earlier)
      (List.mem_range.1 inRange) reads
  have distinct : names.Nodup := by
    refine List.Nodup.filterMap (fun first second name isFirst isSecond => ?_) List.nodup_range
    have reads : ∀ earlier, name ∈ (request.candidate (earlier + 1)).toOption →
        request.candidate (earlier + 1) = .ok name := by
      intro earlier isName
      cases found : request.candidate (earlier + 1) with
      | error error =>
          rw [found] at isName
          cases isName
      | ok other =>
          rw [found] at isName
          rw [Option.some.inj isName]
    exact Nat.succ.inj (Request.number_eq_of_candidate_eq_ok (reads first isFirst)
      (reads second isSecond))
  have few : names.length ≤ issued.names.length := distinct.length_le_of_subset sub
  have missed := records.misses request
  have whole := length_filterMap_add_countP
    (fun earlier => (request.candidate (earlier + 1)).toOption)
    (List.range (issued.counter request.key))
  have all := length_filterMap_add_countP Except.toOption answers
  rw [List.length_range] at whole
  rw [records.names] at few
  rw [IssuedNames.misses] at missed
  simp only [granted, refusals, names] at few missed whole all
  omega

theorem isFeature_of_isIdentifier_stem {base : TypeName} {feature : String}
    (valid : isIdentifier (stem base feature) = true) : IsFeature feature := by
  rw [isIdentifier, Bool.and_eq_true] at valid
  intro c member
  refine isIdentifierPart_of_shape valid.1 ?_
  rw [toList_stem]
  exact List.mem_append_right _ member

structure Answered (earlier : List Request) (request : Request)
    (found : Except TypeNameError TypeName) : Prop where
  /-- The search ends, at a number that is at most that of the requests so far. -/
  ends : ∃ number, number ≤ earlier.length + 1 ∧
    (after (earlier ++ [request])).counter request.key = number ∧
    Finds (after earlier).names request.candidate ((after earlier).counter request.key) found
      number
  refused : ∀ error, found = .error error →
    (after (earlier ++ [request])).names = (after earlier).names
  granted : ∀ name, found = .ok name → name ∉ (after earlier).names ∧
    (after (earlier ++ [request])).names = (after earlier).names ++ [name]
  /-- A stem that is an identifier gets the first of its names that is not issued yet. -/
  first : isIdentifier (stem request.base request.feature) = true →
    ∃ name number, found = .ok name ∧ 0 < number ∧ name.package = request.base.package ∧
      name.simple.text = numbered request.base request.feature number ∧
      ∀ smaller, 0 < smaller → smaller < number →
        ∃ other ∈ (after earlier).names, other.package = request.base.package ∧
          other.simple.text = numbered request.base request.feature smaller

theorem answered (earlier : List Request) (request : Request) :
    Answered earlier request ((after earlier).answer request).1 := by
  have records := records_after earlier
  have bound := (records_after (earlier ++ [request])).counter_le request
  rw [answers, length_serve, List.length_append, List.length_singleton] at bound
  obtain ⟨found, number, finds, ends⟩ := exists_finds (after earlier) request
  have counter : (after (earlier ++ [request])).counter request.key = number := by
    rw [after_concat, ends, counter_setCounter, if_pos rfl]
  have names : (after (earlier ++ [request])).names =
      (after earlier).names ++ IssuedNames.granted [found] := by
    rw [after_concat, ends]
  rw [show ((after earlier).answer request).1 = found by rw [ends]]
  refine ⟨⟨number, counter ▸ bound, counter, finds⟩, ?_, ?_, ?_⟩
  · rintro error rfl
    rw [names]
    exact List.append_nil _
  · rintro name rfl
    exact ⟨finds.not_mem_taken rfl, names⟩
  · intro valid
    have isFeature := isFeature_of_isIdentifier_stem valid
    have reads : ∀ smaller, request.candidate smaller =
        .ok (candidateName request.base isFeature smaller) :=
      candidate_eq_ok request.base isFeature
    refine ⟨candidateName request.base isFeature number, number,
      finds.answer_eq.symm.trans (reads number),
      Nat.lt_of_le_of_lt (Nat.zero_le _) finds.above, rfl, rfl, ?_⟩
    intro smaller positive low
    refine ⟨candidateName request.base isFeature smaller, ?_, rfl, rfl⟩
    by_cases passed : smaller ≤ (after earlier).counter request.key
    · exact records.passed request smaller _ positive passed (reads smaller)
    · obtain ⟨name, isTaken, readsName⟩ := finds.exists_taken (Nat.lt_of_not_le passed) low
      rw [reads smaller] at readsName
      rw [Except.ok.inj readsName]
      exact isTaken

theorem mem_granted {answers : List (Except TypeNameError TypeName)} {name : TypeName} :
    name ∈ granted answers ↔ .ok name ∈ answers := by
  rw [granted, List.mem_filterMap]
  constructor
  · rintro ⟨found, member, isName⟩
    cases found with
    | error error =>
        cases isName
    | ok other =>
        cases isName
        exact member
  · exact fun member => ⟨_, member, rfl⟩

end IssuedNames

end AheadOfTime
