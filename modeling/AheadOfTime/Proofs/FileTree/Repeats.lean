import Mathlib.Logic.Function.Basic
import AheadOfTime.Proofs.Compilation.Sources
import AheadOfTime.Proofs.FileTree.Directories

/-!
# Writing again

A file that is there is written again without a directory being made, and one that could not
be written cannot be written later.  So the same files written again leave the same contents
behind, and nothing changes if what they have left behind was still there.
-/

namespace AheadOfTime.FileTree

/-- Whether the same stands at a place and at all places below it. -/
def AgreesBelow (place : Place) (first second : FileTree) : Prop :=
  ∀ names, first.node? (place ++ names) = second.node? (place ++ names)

namespace AgreesBelow

variable {place : Place} {first second third : FileTree}

theorem symm (agrees : AgreesBelow place first second) : AgreesBelow place second first :=
  fun names => (agrees names).symm

theorem trans (agrees : AgreesBelow place first second)
    (agreesToo : AgreesBelow place second third) : AgreesBelow place first third :=
  fun names => (agrees names).trans (agreesToo names)

theorem below (agrees : AgreesBelow place first second) (names : Place) :
    AgreesBelow (place ++ names) first second := by
  intro others
  rw [List.append_assoc]
  exact agrees (names ++ others)

theorem contents? (agrees : AgreesBelow place first second) (names : Place) :
    first.contents? (place ++ names) = second.contents? (place ++ names) := by
  rw [FileTree.contents?, FileTree.contents?, agrees names]

end AgreesBelow

/-- Where no directory is made and all contents stay, all stays. -/
theorem agreesBelow_of_contents? {written : Place → Prop} {before after : FileTree}
    (edits : Edits (fun _ => False) written before after)
    (same : after.contents? = before.contents?) : AgreesBelow [] after before := by
  intro place
  rw [List.nil_append]
  rcases edits.node?_cases place with kept | ⟨never, -⟩ | ⟨-, differs⟩
  · exact kept
  · exact never.elim
  · exact absurd (congrFun same place) differs

/-- Whether a tree is another one after some edits. -/
def Follows (before after : FileTree) : Prop :=
  Edits (fun _ => True) (fun _ => True) before after

theorem Edits.follows {made written : Place → Prop} {before after : FileTree}
    (edits : Edits made written before after) : Follows before after :=
  edits.mono (fun _ _ => trivial) fun _ _ => trivial

theorem Follows.trans {before between after : FileTree} (first : Follows before between)
    (second : Follows between after) : Follows before after :=
  Edits.trans first second

theorem isDirectory_of_isFile {root path : Path} (isBase : root.IsBase)
    (below : root.IsBelow path) {tree : FileTree} (there : tree.isFile path = true) :
    tree.isDirectory root = true := by
  obtain ⟨names, nonempty, each, rfl⟩ := below
  obtain ⟨contents, reads⟩ := Option.isSome_iff_exists.1 there
  rw [← Path.join_ofNames root nonempty each] at reads
  exact isDirectory_of_locate?_join isBase.listable.1 nonempty each (of_read? reads).1

/-- There is room for a file where it is. -/
theorem hasRoom_of_isFile {root path : Path} (isBase : root.IsBase) (below : root.IsBelow path)
    {tree : FileTree} (there : tree.isFile path = true) : tree.HasRoom path := by
  obtain ⟨names, nonempty, each, rfl⟩ := below
  obtain ⟨front, last, whole⟩ := (List.eq_nil_or_concat names).resolve_left nonempty
  rw [List.concat_eq_append] at whole
  rw [whole] at each there ⊢
  obtain ⟨others, isLast⟩ := List.forall_mem_append.1 each
  have isFileName := List.forall_mem_singleton.1 isLast
  have isAbove := isBase.below others
  rw [Path.below_concat] at there ⊢
  obtain ⟨contents, reads⟩ := Option.isSome_iff_exists.1 there
  obtain ⟨located, holds⟩ := of_read? reads
  obtain ⟨leads, -⟩ := (locate?_join_iff isAbove isFileName).1 located
  refine ⟨⟨root.below front, Path.parent?_join isAbove.listable isAbove.ends isFileName,
    isDirectory_of_leadsInto isAbove isFileName leads⟩, ⟨_, last, leads⟩, ?_⟩
  rw [contents?_eq_some_iff.1 holds]
  exact nofun

theorem contents?_of_writeFile {tree after : FileTree} {path : Path} {contents : ByteArray}
    {done : Unit} (written : tree.writeFile path contents = (.ok done, after)) :
    after.contents? = Function.update tree.contents? path.place (some contents) := by
  obtain ⟨changed, made, last⟩ := writeFile_eq_ok_iff.1 written
  have parents := contents?_makeParent tree path
  rw [made] at parents
  rw [← parents]
  funext place
  rw [contents?_write? last, Function.update_apply]

/-- Where a file is not written, no contents change. -/
theorem contents?_of_writeFile_error {tree after : FileTree} {path obstacle : Path}
    {contents : ByteArray} (failed : tree.writeFile path contents = (.error obstacle, after)) :
    after.contents? = tree.contents? := by
  have parents := contents?_makeParent tree path
  rw [writeFile] at failed
  cases made : tree.makeParent path with
  | mk result changed =>
      rw [made] at failed parents
      cases result with
      | error fault =>
          have same : changed = after := congrArg Prod.snd failed
          rw [← same]
          exact parents
      | ok nothing =>
          simp only at failed parents
          cases last : changed.write? path contents with
          | none =>
              rw [last] at failed
              have same : changed = after := congrArg Prod.snd failed
              rw [← same]
              exact parents
          | some final =>
              rw [last] at failed
              cases failed

/-- Writing a file makes directories on the way of the path above it, where nothing was, and
leaves the contents at its place; all else stays. -/
theorem node?_of_writeFile {tree after : FileTree} {path : Path} {contents : ByteArray}
    {result : Except Path Unit} (ends : tree.writeFile path contents = (result, after))
    (place : Place) :
    after.node? place = tree.node? place ∨
      path.VisitsAbove place ∧ tree.node? place = none ∧
        after.node? place = some .directory ∨
      place = path.place ∧ result = .ok () ∧ after.node? place = some (.file contents) := by
  have edits := edits_writeFile tree path contents
  rw [ends] at edits
  rcases edits.node?_cases place with kept | made | ⟨here, differs⟩
  · exact .inl kept
  · exact .inr (.inl made)
  cases result with
  | error obstacle =>
      exact absurd (congrFun (contents?_of_writeFile_error ends) place) differs
  | ok done =>
      refine .inr (.inr ⟨here, rfl, contents?_eq_some_iff.1 ?_⟩)
      rw [contents?_of_writeFile ends, here]
      exact Function.update_self _ _ _

/-- A file that cannot be written into a directory cannot be written there later. -/
theorem write?_stays_none {base : Path} (isBase : base.IsBase) {name : String}
    (isFileName : Path.IsFileName name) {before later : FileTree}
    (there : before.isDirectory base = true) (follows : Follows before later)
    {contents : ByteArray} (failed : before.write? (base.join ⟨name⟩) contents = none)
    (others : ByteArray) : later.write? (base.join ⟨name⟩) others = none := by
  cases written : later.write? (base.join ⟨name⟩) others with
  | none =>
      rfl
  | some after =>
      -- What lets the file be written later has let it be written before.
      obtain ⟨⟨directory, last, leads⟩, free, -⟩ := of_write? written
      have whole := leads.place
      rw [Path.place_join_name _ isFileName] at whole
      obtain ⟨rfl, isName⟩ := List.append_inj' whole rfl
      rw [← (List.cons.inj isName).1,
        leadsInto_join_of_isDirectory isBase isFileName (isDirectory_of_edits follows there),
        ← leadsInto_join_of_isDirectory isBase isFileName there] at leads
      have wasFree : before.node? (base.join ⟨name⟩).place ≠ some .directory :=
        fun directory => free (beq_iff_eq.1 (follows.hasDirectory (beq_iff_eq.2 directory)))
      rw [leads.write? wasFree] at failed
      cases failed

section Again

variable {root : Path} (isBase : root.IsBase) {before changed later : FileTree}
  (there : before.isDirectory root = true)

include isBase there

/-- A file that could not be written cannot be written later, and the attempt changes
nothing. -/
theorem writeFile_stays_blocked {path obstacle : Path} (below : root.IsBelow path)
    {contents : ByteArray}
    (failed : before.writeFile path contents = (.error obstacle, changed))
    (follows : Follows changed later) (others : ByteArray) :
    ∃ again, later.writeFile path others = (.error again, later) := by
  obtain ⟨names, nonempty, each, rfl⟩ := below
  obtain ⟨front, last, whole⟩ := (List.eq_nil_or_concat names).resolve_left nonempty
  rw [List.concat_eq_append] at whole
  rw [whole] at each failed ⊢
  obtain ⟨eachFront, isLast⟩ := List.forall_mem_append.1 each
  have isFileName := List.forall_mem_singleton.1 isLast
  have isAbove := isBase.below eachFront
  have isParent := Path.parent?_join isAbove.listable isAbove.ends isFileName
  rw [Path.below_concat] at failed ⊢
  rw [writeFile, makeParent, isParent] at failed ⊢
  simp only at failed ⊢
  cases makes : before.makeDirectories (root.below front) with
  | mk between isMade =>
      rw [makes] at failed
      cases isMade with
      | false =>
          cases failed
          rw [makeDirectories_stay_blocked isBase there eachFront makes follows]
          exact ⟨root.below front, rfl⟩
      | true =>
          have parent := isDirectory_below_of_makeDirectories isBase there eachFront makes
          simp only at failed
          cases first : between.write? ((root.below front).join ⟨last⟩) contents with
          | some final =>
              rw [first] at failed
              cases failed
          | none =>
              rw [first] at failed
              cases failed
              rw [makeDirectories_of_isDirectory (isDirectory_of_edits follows parent)]
              simp only [write?_stays_none isAbove isFileName parent follows first others]
              exact ⟨(root.below front).join ⟨last⟩, rfl⟩

end Again

/-! ## Several files -/

/-- Write several files, one after the other, and leave out those that cannot be written. -/
def writeEach (tree : FileTree) : List (Path × ByteArray) → FileTree
  | [] => tree
  | (path, contents) :: files => (tree.writeFile path contents).2.writeEach files

/-- The files of several that can be written, one after the other. -/
def accepted (tree : FileTree) : List (Path × ByteArray) → List (Path × ByteArray)
  | [] => []
  | (path, contents) :: files =>
      match tree.writeFile path contents with
      | (.ok (), changed) => (path, contents) :: changed.accepted files
      | (.error _, changed) => changed.accepted files

/-- The contents of files after some have been written over. -/
def overwrite (contents : Place → Option ByteArray) (files : List (Path × ByteArray)) :
    Place → Option ByteArray :=
  files.foldl (fun contents file => Function.update contents file.1.place (some file.2)) contents

theorem overwrite_of_not_mem (contents : Place → Option ByteArray)
    {files : List (Path × ByteArray)} {place : Place}
    (unwritten : ∀ file ∈ files, place ≠ file.1.place) :
    overwrite contents files place = contents place := by
  induction files generalizing contents with
  | nil =>
      rfl
  | cons file files inductionHypothesis =>
      obtain ⟨elsewhere, others⟩ := List.forall_mem_cons.1 unwritten
      exact (inductionHypothesis _ others).trans (Function.update_of_ne elsewhere _ _)

/-- What has been written over does not matter. -/
theorem overwrite_of_mem (first second : Place → Option ByteArray)
    {files : List (Path × ByteArray)} {place : Place}
    (written : ∃ file ∈ files, place = file.1.place) :
    overwrite first files place = overwrite second files place := by
  induction files using List.reverseRecOn with
  | nil =>
      obtain ⟨file, member, -⟩ := written
      cases member
  | append_singleton front last inductionHypothesis =>
      rw [overwrite, overwrite, List.foldl_concat, List.foldl_concat, Function.update_apply,
        Function.update_apply]
      by_cases here : place = last.1.place
      · rw [if_pos here, if_pos here]
      · rw [if_neg here, if_neg here]
        obtain ⟨file, member, same⟩ := written
        rcases List.mem_append.1 member with earlier | isLast
        · exact inductionHypothesis ⟨file, earlier, same⟩
        · rw [List.mem_singleton.1 isLast] at same
          exact absurd same here

/-- Contents that have been written already are not changed by writing them over. -/
theorem overwrite_again (before : Place → Option ByteArray)
    {contents : Place → Option ByteArray} {files : List (Path × ByteArray)}
    (kept : ∀ file ∈ files, contents file.1.place = overwrite before files file.1.place) :
    overwrite contents files = contents := by
  funext place
  by_cases written : ∃ file ∈ files, place = file.1.place
  · obtain ⟨file, member, same⟩ := written
    rw [overwrite_of_mem contents before ⟨file, member, same⟩, same]
    exact (kept file member).symm
  · exact overwrite_of_not_mem contents fun file member same => written ⟨file, member, same⟩

theorem sublist_accepted (tree : FileTree) (files : List (Path × ByteArray)) :
    (tree.accepted files).Sublist files := by
  induction files generalizing tree with
  | nil =>
      exact List.Sublist.refl _
  | cons file files inductionHypothesis =>
      obtain ⟨path, contents⟩ := file
      rw [accepted]
      cases tree.writeFile path contents with
      | mk result changed =>
          cases result with
          | ok done =>
              exact (inductionHypothesis changed).cons_cons _
          | error obstacle =>
              exact (inductionHypothesis changed).cons _

theorem contents?_writeEach (tree : FileTree) (files : List (Path × ByteArray)) :
    (tree.writeEach files).contents? = overwrite tree.contents? (tree.accepted files) := by
  induction files generalizing tree with
  | nil =>
      rfl
  | cons file files inductionHypothesis =>
      obtain ⟨path, contents⟩ := file
      rw [writeEach, accepted, inductionHypothesis]
      cases written : tree.writeFile path contents with
      | mk result changed =>
          cases result with
          | ok done =>
              rw [contents?_of_writeFile written]
              rfl
          | error obstacle =>
              rw [contents?_of_writeFile_error written]

theorem writes_writeEach (tree : FileTree) (files : List (Path × ByteArray)) :
    Writes (files.map Prod.fst) tree (tree.writeEach files) := by
  induction files generalizing tree with
  | nil =>
      exact .refl _ tree
  | cons file files inductionHypothesis =>
      obtain ⟨path, contents⟩ := file
      exact (writes_writeFile tree path contents).append (inductionHypothesis _)

/-- Files that are written again are those that have been written before, and no directory is
made. -/
theorem accepted_again {root : Path} (isBase : root.IsBase) {before later : FileTree}
    (there : before.isDirectory root = true) {files : List (Path × ByteArray)}
    (below : ∀ file ∈ files, root.IsBelow file.1)
    (follows : Follows (before.writeEach files) later) :
    later.accepted files = before.accepted files ∧
      OnlyWrites ((before.accepted files).map Prod.fst) later (later.writeEach files) := by
  induction files generalizing before later with
  | nil =>
      exact ⟨rfl, .done⟩
  | cons file files inductionHypothesis =>
      obtain ⟨path, contents⟩ := file
      obtain ⟨here, others⟩ := List.forall_mem_cons.1 below
      have writes := writes_writeFile before path contents
      rw [writeEach] at follows
      rw [writeEach, accepted, accepted]
      cases written : before.writeFile path contents with
      | mk result changed =>
          rw [written] at follows writes
          have thereToo := isDirectory_of_edits writes there
          have sinceThen := (writes_writeEach changed files).follows.trans follows
          cases result with
          | error obstacle =>
              obtain ⟨again, failed⟩ :=
                writeFile_stays_blocked isBase there here written sinceThen contents
              rw [failed]
              exact inductionHypothesis thereToo others follows
          | ok done =>
              have isFile : changed.isFile path = true := by
                rw [FileTree.isFile, of_writeFile written]
                rfl
              have room := hasRoom_of_isFile isBase here (isFile_of_edits sinceThen isFile)
              have writesHere := onlyWrites_put room contents
              obtain ⟨same, writesLater⟩ :=
                inductionHypothesis thereToo others (follows.trans writesHere.follows)
              rw [writeFile_of_hasRoom room]
              simp only [same]
              exact ⟨trivial, writesHere.append writesLater⟩

/-- Nothing changes when files are written again that are as they were written. -/
theorem writeEach_again {root : Path} (isBase : root.IsBase) {before later : FileTree}
    (there : before.isDirectory root = true) {files : List (Path × ByteArray)}
    (below : ∀ file ∈ files, root.IsBelow file.1)
    (follows : Follows (before.writeEach files) later)
    (kept : ∀ file ∈ files,
      later.contents? file.1.place = (before.writeEach files).contents? file.1.place) :
    AgreesBelow [] (later.writeEach files) later := by
  obtain ⟨same, writes⟩ := accepted_again isBase there below follows
  rw [contents?_writeEach] at kept
  refine agreesBelow_of_contents? writes ?_
  rw [contents?_writeEach, same]
  exact overwrite_again before.contents? fun file member =>
    kept file ((sublist_accepted before files).subset member)

/-- Texts that have been written are files that have been written. -/
theorem of_writeTexts_eq_ok {tree after : FileTree} {files : List (Path × String)}
    {paths : List Path} (written : tree.writeTexts files = (.ok paths, after)) :
    paths = files.map Prod.fst ∧
      after = tree.writeEach (files.map fun file => (file.1, file.2.toUTF8)) ∧
      tree.accepted (files.map fun file => (file.1, file.2.toUTF8)) =
        files.map fun file => (file.1, file.2.toUTF8) := by
  induction files generalizing tree paths with
  | nil =>
      cases written
      exact ⟨rfl, rfl, rfl⟩
  | cons file files inductionHypothesis =>
      obtain ⟨path, text⟩ := file
      obtain ⟨changed, others, first, rest, rfl⟩ := writeTexts_cons_eq_ok_iff.1 written
      obtain ⟨same, isAfter, each⟩ := inductionHypothesis rest
      rw [List.map_cons, List.map_cons, writeEach, accepted, first]
      exact ⟨congrArg (path :: ·) same, isAfter, congrArg ((path, text.toUTF8) :: ·) each⟩

/-- Nothing changes when texts are written again that are as they were written. -/
theorem writeTexts_again {root : Path} (isBase : root.IsBase) {before after later : FileTree}
    {files : List (Path × String)} (below : ∀ file ∈ files, root.IsBelow file.1)
    {paths : List Path} (written : before.writeTexts files = (.ok paths, after))
    (follows : Follows after later)
    (kept : ∀ file ∈ files, later.contents? file.1.place = after.contents? file.1.place) :
    ∃ final, later.writeTexts files = (.ok paths, final) ∧ Follows later final ∧
      AgreesBelow [] final later := by
  have room : ∀ file ∈ files, later.HasRoom file.1 := fun file member =>
    hasRoom_of_isFile isBase (below file member)
      (isFile_of_edits follows (isFile_of_writeTexts written file member))
  obtain ⟨others, final, again, writes⟩ := exists_writeTexts room
  obtain ⟨same, isAfter, each⟩ := of_writeTexts_eq_ok written
  obtain ⟨sameAgain, isFinal, eachAgain⟩ := of_writeTexts_eq_ok again
  refine ⟨final, by rw [again, same, sameAgain], writes.follows,
    agreesBelow_of_contents? writes ?_⟩
  rw [isAfter, contents?_writeEach, each] at kept
  rw [isFinal, contents?_writeEach, eachAgain]
  refine overwrite_again before.contents? fun file member => ?_
  obtain ⟨text, isText, rfl⟩ := List.mem_map.1 member
  exact kept text isText

end AheadOfTime.FileTree
