import AheadOfTime.Proofs.FileTree.Views

/-!
# Collecting again

Directories that are apart are collected into a third one by laying their files over what is
there.  When they are collected again, each place gets the contents that it had already, though
a file of the first directory may stand there until the second one is collected.
-/

namespace AheadOfTime.FileTree

theorem isFile_of_write? {tree after : FileTree} {path : Path} {contents : ByteArray}
    (written : tree.write? path contents = some after) : after.isFile path = true := by
  rw [isFile, read?_eq_contents? (locate?_write? written), contents?_write? written, if_pos rfl]
  rfl

theorem isFile_of_copy? {tree after : FileTree} {source target : Path}
    (copied : tree.copy? source target = some after) :
    after.isFile source = true ∧ after.isFile target = true := by
  unfold copy? at copied
  split at copied
  · cases copied
  · rename_i there
    split at copied
    · cases copied
    · rename_i emptied isEmptied
      split at copied
      · cases copied
      · have edits := (writes_write? isEmptied).trans (writes_write? copied)
        exact ⟨isFile_of_edits edits (by simpa using there), isFile_of_write? copied⟩

theorem isFile_of_copyFile {tree after : FileTree} {source target : Path} {done : Unit}
    (copied : tree.copyFile source target = (.ok done, after)) :
    after.isFile source = true ∧ after.isFile target = true := by
  obtain ⟨changed, -, last⟩ := copyFile_eq_ok_iff.1 copied
  exact isFile_of_copy? last

/-- What has been copied is there, and so is what it has been copied from. -/
theorem of_copyFiles_eq_ok {tree after : FileTree} {files : List (Path × Path)}
    {targets : List Path} (copied : tree.copyFiles files = (.ok targets, after)) :
    targets = files.map Prod.snd ∧
      ∀ file ∈ files, after.isFile file.1 = true ∧ after.isFile file.2 = true := by
  induction files generalizing tree targets with
  | nil =>
      cases copied
      exact ⟨rfl, List.forall_mem_nil _⟩
  | cons file files inductionHypothesis =>
      obtain ⟨source, target⟩ := file
      obtain ⟨changed, others, first, rest, rfl⟩ := copyFiles_cons_eq_ok_iff.1 copied
      have edits := writes_copyFiles changed files
      rw [rest] at edits
      obtain ⟨same, later⟩ := inductionHypothesis rest
      obtain ⟨isSource, isTarget⟩ := isFile_of_copyFile first
      exact ⟨congrArg (target :: ·) same, List.forall_mem_cons.2
        ⟨⟨isFile_of_edits edits isSource, isFile_of_edits edits isTarget⟩, later⟩⟩

/-- Files that have been copied are copied again without a directory being made. -/
theorem copyFiles_again {root : Path} (isBase : root.IsBase) {tree after later : FileTree}
    {files : List (Path × Path)} (below : ∀ file ∈ files, root.IsBelow file.2)
    {targets : List Path} (copied : tree.copyFiles files = (.ok targets, after))
    (follows : Follows after later) :
    ∃ final, later.copyFiles files = (.ok targets, final) ∧
      OnlyWrites (files.map Prod.snd) later final := by
  obtain ⟨same, there⟩ := of_copyFiles_eq_ok copied
  obtain ⟨others, final, again, writes⟩ := exists_copyFiles
    (fun file member => isFile_of_edits follows (there file member).1) fun file member =>
      hasRoom_of_isFile isBase (below file member) (isFile_of_edits follows (there file member).2)
  refine ⟨final, ?_, writes⟩
  rw [again, same, (of_copyFiles_eq_ok again).1]

/-- Whether files have been laid over those below a place, and no others have changed. -/
structure LaidOver (files : Place → Option ByteArray) (place : Place)
    (before after : FileTree) : Prop where
  below : ∀ names, after.contents? (place ++ names) =
    (files names).or (before.contents? (place ++ names))
  elsewhere : ∀ other, ¬ place <+: other → after.contents? other = before.contents? other

/-- Files that have been laid over others are not changed by laying all over them again. -/
theorem LaidOver.again {first second : Place → Option ByteArray} {place : Place}
    {before between after later between' final : FileTree}
    (laysFirst : LaidOver first place before between)
    (laysSecond : LaidOver second place between after)
    (same : later.contents? = after.contents?)
    (laysFirstAgain : LaidOver first place later between')
    (laysSecondAgain : LaidOver second place between' final) :
    final.contents? = later.contents? := by
  funext other
  by_cases isBelow : place <+: other
  · obtain ⟨names, rfl⟩ := isBelow
    rw [laysSecondAgain.below, laysFirstAgain.below, same, laysSecond.below, laysFirst.below]
    cases second names with
    | some contents =>
        rfl
    | none =>
        cases first names with
        | some contents =>
            rfl
        | none =>
            rfl
  · rw [laysSecondAgain.elsewhere other isBelow, laysFirstAgain.elsewhere other isBelow]

section Collected

variable {tree : FileTree} {directory destination : Path}

theorem isBelow_of_mem_collectionPlan {file : Path × Path}
    (member : file ∈ tree.collectionPlan directory destination) :
    destination.IsBelow file.2 := by
  rw [collectionPlan_eq] at member
  obtain ⟨names, isListed, same⟩ := List.mem_map.1 member
  rw [← same]
  obtain ⟨nonempty, each⟩ := named_of_mem_listing isListed
  exact Path.isBelow_join_ofNames destination nonempty each

/-- What a directory offers is laid over what is there. -/
theorem laidOver_of_copyFiles (apart : destination.Apart directory) {after : FileTree}
    {targets : List Path}
    (copied : tree.copyFiles (tree.collectionPlan directory destination) = (.ok targets, after)) :
    LaidOver (tree.offered? directory) destination.place tree after := by
  constructor
  · intro names
    cases offered : tree.offered? directory names with
    | none =>
        exact contents?_of_not_offered copied offered
    | some contents =>
        exact contents?_of_offered copied offered
          (not_isSpoiled_of_apart tree apart.notAbove apart.notBelow names)
  · intro other notBelow
    have writes := writes_copyFiles tree (tree.collectionPlan directory destination)
    rw [copied] at writes
    refine writes.contents? ?_
    rintro ⟨path, member, rfl⟩
    obtain ⟨file, isFile, rfl⟩ := List.mem_map.1 member
    obtain ⟨names, same⟩ := (isBelow_of_mem_collectionPlan isFile).exists_place
    exact notBelow (same ▸ List.prefix_append _ _)

end Collected

section Again

variable {root destination : Path} (isBase : root.IsBase)
  (inside : ∀ path, destination.IsBelow path → root.IsBelow path)

include inside

/-- What stands apart from a directory stays as it is when files are collected into it. -/
theorem agreesBelow_of_copyFiles {tree after : FileTree}
    (there : tree.isDirectory root = true) {directory other : Path}
    (apart : destination.Apart other) {targets : List Path}
    (copied : tree.copyFiles (tree.collectionPlan directory destination) =
      (.ok targets, after)) :
    AgreesBelow other.place tree after := by
  have writes := writes_copyFiles tree (tree.collectionPlan directory destination)
  rw [copied] at writes
  exact agreesBelow_of_writes there writes
    (List.forall_mem_map.2 fun file member =>
      inside file.2 (isBelow_of_mem_collectionPlan member))
    (List.forall_mem_map.2 fun file member =>
      apart.symm.outside (isBelow_of_mem_collectionPlan member))

include isBase

/-- A directory that still offers what has been collected from it is collected again. -/
theorem copyPlan_again {tree after later : FileTree} {directory : Path}
    (apart : destination.Apart directory)
    (isListed : tree.IsListed directory) (isListedLater : later.IsListed directory)
    (agrees : AgreesBelow directory.place tree later) {targets : List Path}
    (copied : tree.copyFiles (tree.collectionPlan directory destination) = (.ok targets, after))
    (follows : Follows after later) :
    ∃ final, later.copyFiles (later.collectionPlan directory destination) =
        (.ok targets, final) ∧
      OnlyWrites ((tree.collectionPlan directory destination).map Prod.snd) later final ∧
      LaidOver (tree.offered? directory) destination.place later final := by
  have samePlan := collectionPlan_of_agreesBelow isListed isListedLater agrees destination
  obtain ⟨final, again, writes⟩ := copyFiles_again isBase
    (fun file member => inside file.2 (isBelow_of_mem_collectionPlan member)) copied follows
  rw [samePlan] at again
  refine ⟨final, again, writes, ?_⟩
  rw [funext (offered?_of_agreesBelow isListed isListedLater agrees)]
  exact laidOver_of_copyFiles apart again

/-- Two directories that have been collected are collected again, and nothing changes. -/
theorem collect_again {tree overlaid after later : FileTree}
    (there : tree.isDirectory root = true) {first second : Path}
    (firstApart : destination.Apart first) (secondApart : destination.Apart second)
    (isListed : tree.IsListed first) (isListedToo : tree.IsListed second)
    {copied collected : List Path}
    (copiesFirst : tree.copyFiles (tree.collectionPlan first destination) =
      (.ok copied, overlaid))
    (copiesSecond : overlaid.copyFiles (overlaid.collectionPlan second destination) =
      (.ok collected, after))
    (follows : Follows after later) (agrees : AgreesBelow [] later after) :
    ∃ between final,
      later.copyFiles (later.collectionPlan first destination) = (.ok copied, between) ∧
      between.copyFiles (between.collectionPlan second destination) = (.ok collected, final) ∧
      AgreesBelow [] final later := by
  have writesFirst := writes_copyFiles tree (tree.collectionPlan first destination)
  rw [copiesFirst] at writesFirst
  have writesSecond := writes_copyFiles overlaid (overlaid.collectionPlan second destination)
  rw [copiesSecond] at writesSecond
  have thereOverlaid := isDirectory_of_edits writesFirst there
  have toLater := (writesFirst.follows.trans writesSecond.follows).trans follows
  have stays : ∀ directory : Path, tree.IsListed directory → later.IsListed directory :=
    fun directory isListed => ⟨isListed.1, isDirectory_of_edits toLater isListed.2⟩
  have firstKept : AgreesBelow first.place tree later :=
    ((agreesBelow_of_copyFiles inside there firstApart copiesFirst).trans
      (agreesBelow_of_copyFiles inside thereOverlaid firstApart copiesSecond)).trans
      (agrees.symm.below first.place)
  obtain ⟨between, copiesAgain, writes, lays⟩ := copyPlan_again isBase inside firstApart
    isListed (stays first isListed) firstKept copiesFirst (writesSecond.follows.trans follows)
  have secondKept : AgreesBelow second.place overlaid between :=
    ((agreesBelow_of_copyFiles inside thereOverlaid secondApart
      copiesSecond).trans (agrees.symm.below second.place)).trans
      (agreesBelow_of_copyFiles inside (isDirectory_of_edits toLater there) secondApart
        copiesAgain)
  obtain ⟨final, collectsAgain, writesLater, laysToo⟩ := copyPlan_again isBase inside secondApart
    ⟨isListedToo.1, isDirectory_of_edits writesFirst isListedToo.2⟩
    ⟨isListedToo.1, isDirectory_of_edits writes (stays second isListedToo).2⟩ secondKept
    copiesSecond (follows.trans writes.follows)
  refine ⟨between, final, copiesAgain, collectsAgain,
    agreesBelow_of_contents? (writes.append writesLater) ?_⟩
  exact (laidOver_of_copyFiles firstApart copiesFirst).again
    (laidOver_of_copyFiles secondApart copiesSecond)
    (funext fun place => agrees.contents? place) lays laysToo

end Again

end AheadOfTime.FileTree
