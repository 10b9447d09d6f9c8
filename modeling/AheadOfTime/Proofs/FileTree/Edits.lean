import AheadOfTime.Proofs.Path

/-!
# Edits of file trees

A file tree is edited by making directories where nothing was and by writing files where no
directory was.  What a history of edits does to one place, and what it keeps, follows from
what one edit does.
-/

namespace AheadOfTime.FileTree

theorem node?_put {tree : FileTree} {place : Place} (admits : tree.Admits place) (node : Node)
    (other : Place) :
    (tree.put place node).node? other = if other = place then some node else tree.node? other := by
  rw [put, dif_pos admits]
  exact nodeAt?_entriesWith tree admits.below node other

theorem Admits.node?_ne_directory {tree : FileTree} {place : Place} (admits : tree.Admits place) :
    tree.node? place ≠ some .directory :=
  beq_eq_false_iff_ne.1 admits.free

/-- A step starts in a directory and leads where the part says, to a node that is there. -/
theorem of_step {tree : FileTree} {place next : Place} {part : String}
    (leads : tree.step place part = .ok next) :
    tree.hasDirectory place = true ∧ next = Path.stepPlace place part ∧
      (Path.IsName part → ∃ node, tree.node? next = some node) := by
  unfold step at leads
  split at leads
  · cases leads
  · rename_i starts
    have directory : tree.hasDirectory place = true := by
      simpa using starts
    refine ⟨directory, ?_⟩
    split at leads
    · rename_i stays
      have silent : part = "" ∨ part = "." := by
        simpa using stays
      refine ⟨?_, fun isName => ?_⟩
      · rw [Path.stepPlace, if_pos silent]
        exact (Except.ok.inj leads).symm
      · rcases silent with empty | here
        · exact absurd empty isName.1
        · exact absurd here isName.2.1
    · rename_i moves
      have counts : ¬ (part = "" ∨ part = ".") := by
        simpa using moves
      split at leads
      · rename_i goesUp
        refine ⟨?_, fun isName => absurd goesUp isName.2.2⟩
        rw [Path.stepPlace, if_neg counts, if_pos goesUp]
        exact (Except.ok.inj leads).symm
      · rename_i goesDown
        split at leads
        · cases leads
        · split at leads
          · rename_i node found
            have same := Except.ok.inj leads
            rw [← same]
            refine ⟨?_, fun _ => ⟨node, found⟩⟩
            rw [Path.stepPlace, if_neg counts, if_neg goesDown]
          · cases leads

/-- A way goes on from where its first part leads. -/
theorem walk_cons_eq_ok_iff {tree : FileTree} {start place : Place} {part : String}
    {parts : List String} :
    tree.walk start (part :: parts) = .ok place ↔
      ∃ next, tree.step start part = .ok next ∧ tree.walk next parts = .ok place := by
  rw [walk]
  cases tree.step start part with
  | error fault =>
      constructor
      · intro leads
        cases leads
      · rintro ⟨next, taken, -⟩
        cases taken
  | ok next =>
      constructor
      · intro leads
        exact ⟨next, rfl, leads⟩
      · rintro ⟨_, taken, leads⟩
        cases taken
        exact leads

/-- Parts of a path lead where they say, if they lead anywhere. -/
theorem placeFrom_of_walk {tree : FileTree} {start place : Place} {parts : List String}
    (leads : tree.walk start parts = .ok place) : place = Path.placeFrom start parts := by
  induction parts generalizing start with
  | nil =>
      exact (Except.ok.inj leads).symm
  | cons part parts inductionHypothesis =>
      obtain ⟨next, taken, rest⟩ := walk_cons_eq_ok_iff.1 leads
      rw [Path.placeFrom, List.foldl_cons, ← (of_step taken).2.1]
      exact inductionHypothesis rest

theorem walk_append (tree : FileTree) (start : Place) (first second : List String) :
    tree.walk start (first ++ second) =
      match tree.walk start first with
      | .error fault => .error fault
      | .ok place => tree.walk place second := by
  induction first generalizing start with
  | nil =>
      rfl
  | cons part first inductionHypothesis =>
      rw [List.cons_append, walk, walk]
      cases tree.step start part with
      | error fault =>
          rfl
      | ok next =>
          exact inductionHypothesis next

/-- The contents of the file at a place. -/
def contents? (tree : FileTree) (place : Place) : Option ByteArray :=
  match tree.node? place with
  | some (.file contents) => some contents
  | _ => none

theorem contents?_eq_some_iff {tree : FileTree} {place : Place} {contents : ByteArray} :
    tree.contents? place = some contents ↔ tree.node? place = some (.file contents) := by
  rw [contents?]
  cases tree.node? place with
  | none =>
      exact ⟨nofun, nofun⟩
  | some node =>
      cases node with
      | directory =>
          exact ⟨nofun, nofun⟩
      | file found =>
          simp

/-- Whether a tree is another one after edits: directories are made at some places where
nothing was, and files are written at others where no directory was. -/
inductive Edits (made written : Place → Prop) (before : FileTree) : FileTree → Prop where
  | done : Edits made written before before
  | make {after : FileTree} (edits : Edits made written before after) {place : Place}
      (admits : after.Admits place) (allowed : made place) (free : after.node? place = none) :
      Edits made written before (after.put place .directory)
  | write {after : FileTree} (edits : Edits made written before after) {place : Place}
      (admits : after.Admits place) (allowed : written place) (contents : ByteArray) :
      Edits made written before (after.put place (.file contents))

namespace Edits

variable {made written : Place → Prop} {before between after : FileTree}

theorem trans (first : Edits made written before between)
    (second : Edits made written between after) : Edits made written before after := by
  induction second with
  | done =>
      exact first
  | make edits admits allowed free inductionHypothesis =>
      exact inductionHypothesis.make admits allowed free
  | write edits admits allowed contents inductionHypothesis =>
      exact inductionHypothesis.write admits allowed contents

theorem mono {madeMore writtenMore : Place → Prop} (edits : Edits made written before after)
    (moreMade : ∀ place, made place → madeMore place)
    (moreWritten : ∀ place, written place → writtenMore place) :
    Edits madeMore writtenMore before after := by
  induction edits with
  | done =>
      exact .done
  | make edits admits allowed free inductionHypothesis =>
      exact inductionHypothesis.make admits (moreMade _ allowed) free
  | write edits admits allowed contents inductionHypothesis =>
      exact inductionHypothesis.write admits (moreWritten _ allowed) contents

end Edits

/-! ## What edits do to a place -/

/-- What may happen at a place: nothing, a directory is made where nothing was, or a file
is written where no directory was. -/
inductive NodeChange (made written : Prop) : Option Node → Option Node → Prop where
  | kept (node : Option Node) : NodeChange made written node node
  | made (allowed : made) : NodeChange made written none (some .directory)
  | written (allowed : written) {before : Option Node} (free : before ≠ some .directory)
      (contents : ByteArray) : NodeChange made written before (some (.file contents))

theorem NodeChange.trans {made written : Prop} {before between after : Option Node}
    (first : NodeChange made written before between)
    (second : NodeChange made written between after) :
    NodeChange made written before after := by
  cases first with
  | kept node =>
      exact second
  | made allowed =>
      cases second with
      | kept node =>
          exact .made allowed
      | written allowedWrite free contents =>
          exact absurd rfl free
  | written allowed free contents =>
      cases second with
      | kept node =>
          exact .written allowed free contents
      | written allowedAgain freeAgain contentsAgain =>
          exact .written allowedAgain free contentsAgain

namespace Edits

variable {made written : Place → Prop} {before after : FileTree}

theorem nodeChange (edits : Edits made written before after) (place : Place) :
    NodeChange (made place) (written place) (before.node? place) (after.node? place) := by
  induction edits with
  | done =>
      exact .kept _
  | @make between edits target admits allowed free inductionHypothesis =>
      refine inductionHypothesis.trans ?_
      rw [node?_put admits]
      by_cases same : place = target
      · rw [if_pos same, same, free]
        exact .made allowed
      · rw [if_neg same]
        exact .kept _
  | @write between edits target admits allowed contents inductionHypothesis =>
      refine inductionHypothesis.trans ?_
      rw [node?_put admits]
      by_cases same : place = target
      · rw [if_pos same, same]
        exact .written allowed admits.node?_ne_directory contents
      · rw [if_neg same]
        exact .kept _

/-- A place stays, or a directory is made at it, or its file is written and has other contents. -/
theorem node?_cases (edits : Edits made written before after) (place : Place) :
    after.node? place = before.node? place ∨
      made place ∧ before.node? place = none ∧ after.node? place = some .directory ∨
      written place ∧ after.contents? place ≠ before.contents? place := by
  have change := edits.nodeChange place
  rw [FileTree.contents?, FileTree.contents?]
  generalize before.node? place = was at change ⊢
  generalize after.node? place = becomes at change ⊢
  cases change with
  | kept node =>
      exact .inl rfl
  | made allowed =>
      exact .inr (.inl ⟨allowed, rfl, rfl⟩)
  | written allowed free contents =>
      cases was with
      | none =>
          exact .inr (.inr ⟨allowed, nofun⟩)
      | some node =>
          cases node with
          | directory =>
              exact absurd rfl free
          | file old =>
              by_cases same : contents = old
              · rw [same]
                exact .inl rfl
              · exact .inr (.inr ⟨allowed, fun holds => same (Option.some.inj holds)⟩)

/-- A directory stays a directory. -/
theorem hasDirectory (edits : Edits made written before after) {place : Place}
    (directory : before.hasDirectory place = true) : after.hasDirectory place = true := by
  have change := edits.nodeChange place
  have was : before.node? place = some .directory := beq_iff_eq.1 directory
  rw [was] at change
  rw [FileTree.hasDirectory, beq_iff_eq]
  generalize after.node? place = becomes at change
  cases change with
  | kept node =>
      rfl
  | written allowed free contents =>
      exact absurd rfl free

/-- What is somewhere does not vanish. -/
theorem node?_ne_none (edits : Edits made written before after) {place : Place}
    (there : before.node? place ≠ none) : after.node? place ≠ none := by
  have change := edits.nodeChange place
  generalize before.node? place = was at change there
  generalize after.node? place = becomes at change
  cases change with
  | kept node =>
      exact there
  | made allowed =>
      exact nofun
  | written allowed free contents =>
      exact nofun

/-- Contents change only where files are written. -/
theorem contents? (edits : Edits made written before after) {place : Place}
    (unwritten : ¬ written place) : after.contents? place = before.contents? place := by
  have change := edits.nodeChange place
  rw [FileTree.contents?, FileTree.contents?]
  generalize before.node? place = was at change
  generalize after.node? place = becomes at change
  cases change with
  | kept node =>
      rfl
  | made allowed =>
      rfl
  | written allowed free contents =>
      exact absurd allowed unwritten

/-- A file stays a file. -/
theorem exists_contents? (edits : Edits made written before after) {place : Place}
    {contents : ByteArray} (holds : before.contents? place = some contents) :
    ∃ later, after.contents? place = some later := by
  have change := edits.nodeChange place
  rw [contents?_eq_some_iff.1 holds] at change
  rw [FileTree.contents?]
  generalize after.node? place = becomes at change
  cases change with
  | kept node =>
      exact ⟨contents, rfl⟩
  | written allowed free later =>
      exact ⟨later, rfl⟩

/-- Where something is that is no directory, there will be none. -/
theorem not_hasDirectory (edits : Edits made written before after) {place : Place}
    (there : before.node? place ≠ none) (notDirectory : before.hasDirectory place = false) :
    after.hasDirectory place = false := by
  have change := edits.nodeChange place
  rw [FileTree.hasDirectory, beq_eq_false_iff_ne] at notDirectory ⊢
  generalize before.node? place = was at change there notDirectory
  generalize after.node? place = becomes at change
  cases change with
  | kept node =>
      exact notDirectory
  | made allowed =>
      exact absurd rfl there
  | written allowed free contents =>
      exact nofun

/-- Where a directory is in the end, there has been one if anything. -/
theorem hasDirectory_of_later (edits : Edits made written before after) {place : Place}
    (there : before.node? place ≠ none) (directory : after.hasDirectory place = true) :
    before.hasDirectory place = true := by
  cases was : before.hasDirectory place with
  | true =>
      rfl
  | false =>
      have stays := edits.not_hasDirectory there was
      rw [directory] at stays
      cases stays

end Edits

theorem step_of_edits {made written : Place → Prop} {before after : FileTree}
    (edits : Edits made written before after) {place next : Place} {part : String}
    (leads : before.step place part = .ok next) : after.step place part = .ok next := by
  have starts := edits.hasDirectory (of_step leads).1
  have there : ∀ node, before.node? (place ++ [part]) = some node →
      ∃ later, after.node? (place ++ [part]) = some later := by
    intro node found
    refine Option.ne_none_iff_exists'.1 (edits.node?_ne_none ?_)
    rw [found]
    exact nofun
  unfold step at leads ⊢
  rw [(of_step leads).1] at leads
  rw [starts]
  simp only [Bool.not_true, Bool.false_eq_true, if_false] at leads ⊢
  split at leads
  · rename_i stays
    rw [if_pos stays]
    exact leads
  · rename_i moves
    rw [if_neg moves]
    split at leads
    · rename_i goesUp
      rw [if_pos goesUp]
      exact leads
    · rename_i goesDown
      rw [if_neg goesDown]
      split at leads
      · cases leads
      · rename_i usable
        rw [if_neg usable]
        split at leads
        · rename_i node found
          obtain ⟨later, foundLater⟩ := there node found
          rw [foundLater]
          exact leads
        · cases leads

/-- A path leads on where it led. -/
theorem walk_of_edits {made written : Place → Prop} {before after : FileTree}
    (edits : Edits made written before after) {start place : Place} {parts : List String}
    (leads : before.walk start parts = .ok place) : after.walk start parts = .ok place := by
  induction parts generalizing start with
  | nil =>
      exact leads
  | cons part parts inductionHypothesis =>
      obtain ⟨next, taken, rest⟩ := walk_cons_eq_ok_iff.1 leads
      exact walk_cons_eq_ok_iff.2 ⟨next, step_of_edits edits taken, inductionHypothesis rest⟩

end AheadOfTime.FileTree
