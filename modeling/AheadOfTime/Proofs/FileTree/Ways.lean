import Mathlib.Data.List.Induction
import AheadOfTime.Proofs.FileTree.Room

/-!
# Ways that open

Where a directory stands, all directories above it stand, and a path that goes down only finds
them.  So a path that leads to a directory only after some edits, though the directory was there
before, goes up again from something that was missing.
-/

namespace AheadOfTime

namespace Path

theorem prefix_of_prefix_stepPlace {place start : Place} {part : String}
    (isPrefix : place <+: stepPlace start part) :
    place <+: start ∨ place = stepPlace start part := by
  rw [stepPlace] at isPrefix ⊢
  split at isPrefix
  · exact .inl isPrefix
  · split at isPrefix
    · exact .inl (isPrefix.trans (List.dropLast_prefix start))
    · rename_i notSilent notUp
      rw [if_neg notSilent, if_neg notUp]
      exact (List.prefix_concat_iff.1 isPrefix).symm

theorem stepPlace_prefix (start : Place) {part : String} (noName : ¬ IsName part) :
    stepPlace start part <+: start := by
  rw [stepPlace]
  split
  · exact List.prefix_refl start
  · rename_i counts
    have goesUp : part = ".." := by
      by_contra notUp
      exact noName ⟨fun empty => counts (.inl empty), fun here => counts (.inr here), notUp⟩
    rw [if_pos goesUp]
    exact List.dropLast_prefix start

/-- All places above the one that a path leads to are on its way. -/
theorem visits_of_prefix {path : Path} {place : Place} (isPrefix : place <+: path.place) :
    path.Visits place := by
  have each : ∀ parts : List String, place <+: placeFrom [] parts →
      ∃ front, front <+: parts ∧ place = placeFrom [] front := by
    intro parts
    induction parts using List.reverseRecOn with
    | nil =>
        exact fun isPrefix => ⟨[], List.prefix_refl _, List.prefix_nil.1 isPrefix⟩
    | append_singleton parts part inductionHypothesis =>
        intro isPrefix
        rw [placeFrom_append] at isPrefix
        rcases prefix_of_prefix_stepPlace isPrefix with before | here
        · obtain ⟨front, inParts, same⟩ := inductionHypothesis before
          exact ⟨front, inParts.trans (List.prefix_append _ _), same⟩
        · refine ⟨parts ++ [part], List.prefix_refl _, ?_⟩
          rw [placeFrom_append]
          exact here
  exact each path.parts isPrefix

theorem prefix_placeFrom (start : Place) {parts : List String} (noUp : ".." ∉ parts) :
    start <+: placeFrom start parts := by
  induction parts generalizing start with
  | nil =>
      exact List.prefix_refl start
  | cons part parts inductionHypothesis =>
      rw [List.mem_cons, not_or] at noUp
      refine List.IsPrefix.trans ?_ (inductionHypothesis (stepPlace start part) noUp.2)
      rw [stepPlace]
      split
      · exact List.prefix_refl start
      · rw [if_neg (Ne.symm noUp.1)]
        exact List.prefix_append start [part]

end Path

namespace FileTree

theorem node?_ne_none_of_hasDirectory {tree : FileTree} {place : Place}
    (directory : tree.hasDirectory place = true) : tree.node? place ≠ none := by
  rw [beq_iff_eq.1 directory]
  exact nofun

section Directories

variable {tree : FileTree}

theorem hasDirectory_of_concat {place : Place} {name : String}
    (there : tree.node? (place ++ [name]) ≠ none) : tree.hasDirectory place = true := by
  obtain ⟨node, found⟩ := Option.ne_none_iff_exists'.1 there
  rw [node?_of_ne_nil tree (List.append_ne_nil_of_right_ne_nil _ (List.cons_ne_nil _ _))] at found
  have above := tree.rooted _ (mem_of_lookup found)
  rw [List.dropLast_concat] at above
  exact beq_iff_eq.2 above

theorem hasDirectory_of_append {place names : Place} (nonempty : names ≠ [])
    (there : tree.node? (place ++ names) ≠ none) : tree.hasDirectory place = true := by
  induction names using List.reverseRecOn with
  | nil =>
      exact absurd rfl nonempty
  | append_singleton front last inductionHypothesis =>
      rw [← List.append_assoc] at there
      have above := hasDirectory_of_concat there
      by_cases empty : front = []
      · rw [empty, List.append_nil] at above
        exact above
      · exact inductionHypothesis empty (node?_ne_none_of_hasDirectory above)

theorem hasDirectory_of_isPrefix {place below : Place} (isPrefix : place <+: below)
    (directory : tree.hasDirectory below = true) : tree.hasDirectory place = true := by
  obtain ⟨names, rfl⟩ := isPrefix
  by_cases empty : names = []
  · rw [empty, List.append_nil] at directory
    exact directory
  · exact hasDirectory_of_append empty (node?_ne_none_of_hasDirectory directory)

/-- Paths lead to something, if they lead anywhere. -/
theorem node?_ne_none_of_walk {start place : Place} {parts : List String}
    (there : tree.node? start ≠ none) (walked : tree.walk start parts = .ok place) :
    tree.node? place ≠ none := by
  induction parts generalizing start with
  | nil =>
      rw [← Except.ok.inj walked]
      exact there
  | cons part parts inductionHypothesis =>
      obtain ⟨next, taken, rest⟩ := walk_cons_eq_ok_iff.1 walked
      refine inductionHypothesis ?_ rest
      obtain ⟨directory, isNext, found⟩ := of_step taken
      by_cases isName : Path.IsName part
      · obtain ⟨node, isNode⟩ := found isName
        rw [isNode]
        exact Option.some_ne_none node
      · have above : next <+: start := by
          rw [isNext]
          exact Path.stepPlace_prefix start isName
        exact node?_ne_none_of_hasDirectory (hasDirectory_of_isPrefix above directory)

theorem node?_ne_none_of_walk_root {place : Place} {parts : List String}
    (walked : tree.walk [] parts = .ok place) : tree.node? place ≠ none := by
  have atRoot : tree.node? [] ≠ none := Option.some_ne_none Node.directory
  exact node?_ne_none_of_walk atRoot walked

/-- A part that leads somewhere in one tree leads there in another one, if it starts in a
directory and something stands there. -/
theorem step_of_step {later : FileTree} {place next : Place} {part : String}
    (directory : tree.hasDirectory place = true) (there : tree.node? next ≠ none)
    (leads : later.step place part = .ok next) : tree.step place part = .ok next := by
  have starts := (of_step leads).1
  unfold step at leads ⊢
  rw [starts] at leads
  rw [directory]
  simp only [Bool.not_true, Bool.false_eq_true, if_false] at leads ⊢
  split at leads
  · rename_i stays
    rw [if_pos stays]
    exact leads
  · rename_i moves
    rw [if_neg moves]
    split at leads
    · rename_i goesUp
      rw [if_pos goesUp]
      exact leads
    · rename_i goesDown
      rw [if_neg goesDown]
      split at leads
      · cases leads
      · rename_i usable
        rw [if_neg usable]
        split at leads
        · have same := Except.ok.inj leads
          rw [← same] at there ⊢
          obtain ⟨node, found⟩ := Option.ne_none_iff_exists'.1 there
          rw [found]
        · cases leads

theorem node?_ne_none_of_isPrefix {place below : Place} (isPrefix : place <+: below)
    (there : tree.node? below ≠ none) : tree.node? place ≠ none := by
  obtain ⟨names, rfl⟩ := isPrefix
  by_cases empty : names = []
  · rw [empty, List.append_nil] at there
    exact there
  · exact node?_ne_none_of_hasDirectory (hasDirectory_of_append empty there)

/-- A way that does not go up leads to what is there, if it leads there after some edits. -/
theorem walk_of_later {made written : Place → Prop} {later : FileTree}
    (edits : Edits made written tree later) {start place : Place} {parts : List String}
    (noUp : ".." ∉ parts) (there : tree.node? place ≠ none)
    (leads : later.walk start parts = .ok place) : tree.walk start parts = .ok place := by
  induction parts generalizing start with
  | nil =>
      exact leads
  | cons part parts inductionHypothesis =>
      have isPlace := placeFrom_of_walk leads
      have above := Path.prefix_placeFrom start noUp
      rw [List.mem_cons, not_or] at noUp
      obtain ⟨next, taken, rest⟩ := walk_cons_eq_ok_iff.1 leads
      have isPlaceToo := placeFrom_of_walk rest
      have aboveToo := Path.prefix_placeFrom next noUp.2
      rw [← isPlace] at above
      rw [← isPlaceToo] at aboveToo
      have starts := edits.hasDirectory_of_later (node?_ne_none_of_isPrefix above there)
        (of_step taken).1
      have stays := step_of_step starts (node?_ne_none_of_isPrefix aboveToo there) taken
      exact walk_cons_eq_ok_iff.2 ⟨next, stays, inductionHypothesis noUp.2 rest⟩

end Directories

/-- Whether a path goes up from where it leads nowhere. -/
def GoesUpFromNowhere (tree : FileTree) (path : Path) : Prop :=
  ∃ front rest, path.parts = front ++ ".." :: rest ∧ ∀ place, tree.walk [] front ≠ .ok place

theorem exists_last_up {parts : List String} (goesUp : ".." ∈ parts) :
    ∃ front rest, parts = front ++ ".." :: rest ∧ ".." ∉ rest := by
  obtain ⟨last, others, whole, noUp⟩ := List.eq_append_cons_of_mem (List.mem_reverse.2 goesUp)
  refine ⟨others.reverse, last.reverse, ?_, fun member => noUp (List.mem_reverse.1 member)⟩
  have same := congrArg List.reverse whole
  rw [List.reverse_reverse, List.reverse_append, List.reverse_cons, List.append_assoc] at same
  exact same

/-- A path that leads somewhere after some edits, where something has been before, leads there
before, or goes up from where it has led nowhere. -/
theorem leads_or_goesUpFromNowhere {made written : Place → Prop} {before after : FileTree}
    (edits : Edits made written before after) {path : Path} {place : Place}
    (leads : after.locate? path = some place) (there : before.node? place ≠ none) :
    before.locate? path = some place ∨ before.GoesUpFromNowhere path := by
  obtain ⟨usable, walked⟩ := locate?_eq_some_iff.1 leads
  by_cases goesUp : before.GoesUpFromNowhere path
  · exact .inr goesUp
  refine .inl (locate?_eq_some_iff.2 ⟨usable, ?_⟩)
  by_cases up : ".." ∈ path.parts
  · obtain ⟨front, rest, whole, noUp⟩ := exists_last_up up
    obtain ⟨between, first⟩ : ∃ between, before.walk [] front = .ok between := by
      by_contra nowhere
      exact goesUp ⟨front, rest, whole, fun place leads => nowhere ⟨place, leads⟩⟩
    rw [whole, walk_append, walk_of_edits edits first] at walked
    rw [whole, walk_append, first]
    obtain ⟨next, taken, later⟩ := walk_cons_eq_ok_iff.1 walked
    have starts := edits.hasDirectory_of_later (node?_ne_none_of_walk_root first)
      (of_step taken).1
    have isNext : next = between.dropLast := (of_step taken).2.1
    have above : before.hasDirectory next = true := by
      rw [isNext]
      exact hasDirectory_of_isPrefix (List.dropLast_prefix between) starts
    have stays := step_of_step starts (node?_ne_none_of_hasDirectory above) taken
    exact walk_cons_eq_ok_iff.2 ⟨next, stays, walk_of_later edits noUp there later⟩
  · exact walk_of_later edits up there walked

theorem isDirectory_or_goesUpFromNowhere {made written : Place → Prop} {before after : FileTree}
    (edits : Edits made written before after) {path : Path}
    (there : after.isDirectory path = true) (directory : before.hasDirectory path.place = true) :
    before.isDirectory path = true ∨ before.GoesUpFromNowhere path :=
  (leads_or_goesUpFromNowhere edits (isDirectory_iff.1 there).1
    (node?_ne_none_of_hasDirectory directory)).imp_left
      fun leads => isDirectory_iff.2 ⟨leads, directory⟩

end FileTree

end AheadOfTime
