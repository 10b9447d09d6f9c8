import AheadOfTime.Proofs.FileTree.Changes
import AheadOfTime.Proofs.FileTree.Listing

/-!
# What collecting delivers

A file that a directory offers is delivered under its names with the contents that it has
when it is read.  A copy empties its target before it reads, and copies follow one another,
so these are the contents that were offered unless a copy up to this one wrote to the place
that it reads.
-/

namespace AheadOfTime.FileTree

theorem read?_eq_contents? {tree : FileTree} {path : Path}
    (leads : tree.locate? path = some path.place) :
    tree.read? path = tree.contents? path.place := by
  rw [read?, find?, leads, contents?]
  rfl

theorem of_read? {tree : FileTree} {path : Path} {contents : ByteArray}
    (reads : tree.read? path = some contents) :
    tree.locate? path = some path.place ∧ tree.contents? path.place = some contents := by
  cases leads : tree.locate? path with
  | none =>
      rw [read?, find?, leads] at reads
      cases reads
  | some place =>
      have isPlace := place_of_locate? leads
      rw [isPlace] at leads ⊢
      rw [read?_eq_contents? leads] at reads
      exact ⟨rfl, reads⟩

theorem locate?_of_edits {made written : Place → Prop} {before after : FileTree}
    (edits : Edits made written before after) {path : Path} {place : Place}
    (leads : before.locate? path = some place) : after.locate? path = some place := by
  obtain ⟨usable, walked⟩ := locate?_eq_some_iff.1 leads
  exact locate?_eq_some_iff.2 ⟨usable, walk_of_edits edits walked⟩

/-- What a usable path is joined to is usable. -/
theorem isUsablePath_of_join {directory relative : Path} (text : directory.text ≠ "")
    (isRelative : relative.isAbsolute = false)
    (usable : isUsablePath (directory.join relative) = true) :
    isUsablePath directory = true := by
  rw [isUsablePath, Path.text_join _ isRelative, Bool.and_eq_true] at usable
  have chars := usable.2
  simp only [String.toList_append, List.contains_eq_mem, List.mem_append, Bool.not_eq_true',
    decide_eq_false_iff_not, not_or] at chars
  simp only [isUsablePath, text, chars.1.1, bne_iff_ne, ne_eq, not_false_eq_true,
    List.contains_eq_mem, decide_false, Bool.not_false, Bool.and_true]

/-- A way that goes on from a directory first leads there. -/
theorem of_walk_join {tree : FileTree} {directory : Path} {names : Place}
    (nonempty : names ≠ []) (each : ∀ name ∈ names, Path.IsFileName name) {place : Place}
    (walked : tree.walk [] (directory.join (.ofNames names)).parts = .ok place) :
    tree.walk [] directory.parts = .ok directory.place ∧
      tree.hasDirectory directory.place = true := by
  have relative := Path.isAbsolute_ofNames nonempty each
  obtain ⟨front, isFront, joined⟩ := directory.parts_join relative
  obtain ⟨name, rest, whole⟩ := List.exists_cons_of_ne_nil nonempty
  rw [joined, Path.parts_ofNames nonempty each, walk_append, whole] at walked
  cases first : tree.walk [] front with
  | error fault =>
      rw [first] at walked
      cases walked
  | ok found =>
      have isPlace : found = directory.place := by
        rw [placeFrom_of_walk first, Path.placeFrom_front isFront]
      rw [first, isPlace] at walked
      rw [isPlace] at first
      simp only [walk] at walked
      cases taken : tree.step directory.place name with
      | error fault =>
          rw [taken] at walked
          cases walked
      | ok next =>
          have starts := (of_step taken).1
          have stays : tree.step directory.place "" = .ok directory.place := by
            rw [step, starts]
            rfl
          refine ⟨?_, starts⟩
          rcases isFront with same | same
          · rw [same]
            exact first
          · rw [same, walk_append, first]
            simp only [walk, stays]

/-- The directory that names are seen from is there if they lead somewhere. -/
theorem isDirectory_of_locate?_join {tree : FileTree} {directory : Path} {names : Place}
    (text : directory.text ≠ "") (nonempty : names ≠ [])
    (each : ∀ name ∈ names, Path.IsFileName name) {place : Place}
    (leads : tree.locate? (directory.join (.ofNames names)) = some place) :
    tree.isDirectory directory = true := by
  obtain ⟨usable, walked⟩ := locate?_eq_some_iff.1 leads
  obtain ⟨way, there⟩ := of_walk_join nonempty each walked
  have usableToo := isUsablePath_of_join text (Path.isAbsolute_ofNames nonempty each) usable
  exact isDirectory_iff.2 ⟨locate?_eq_some_iff.2 ⟨usableToo, way⟩, there⟩

/-- A directory offers the files that can be read in it. -/
theorem offered?_of_read? {tree : FileTree} {directory : Path} {names : Place}
    (listable : directory.IsListable) (nonempty : names ≠ [])
    (each : ∀ name ∈ names, Path.IsFileName name) {contents : ByteArray}
    (reads : tree.read? (directory.join (.ofNames names)) = some contents) :
    tree.offered? directory names = some contents := by
  obtain ⟨leads, holds⟩ := of_read? reads
  have isListed : tree.IsListed directory :=
    ⟨listable, isDirectory_of_locate?_join listable.1 nonempty each leads⟩
  rw [Path.place_join_names directory nonempty each] at holds
  rw [offered?, if_pos isListed]
  exact holds

theorem contents?_put_file {tree : FileTree} {place : Place} (admits : tree.Admits place)
    (contents : ByteArray) (other : Place) :
    (tree.put place (.file contents)).contents? other =
      if other = place then some contents else tree.contents? other := by
  rw [contents?, node?_put admits]
  by_cases same : other = place
  · rw [if_pos same, if_pos same]
  · rw [if_neg same, if_neg same]
    rfl

theorem contents?_write? {tree after : FileTree} {path : Path} {contents : ByteArray}
    (written : tree.write? path contents = some after) (place : Place) :
    after.contents? place = if place = path.place then some contents else tree.contents? place := by
  obtain ⟨⟨directory, name, leads⟩, free, same⟩ := of_write? written
  rw [same]
  exact contents?_put_file (leads.admits free) contents place

theorem locate?_write? {tree after : FileTree} {path : Path} {contents : ByteArray}
    (written : tree.write? path contents = some after) :
    after.locate? path = some path.place := by
  obtain ⟨⟨directory, name, leads⟩, free, same⟩ := of_write? written
  refine leads.locate? (writes_write? written) ?_
  rw [same, node?_put (leads.admits free), if_pos rfl]
  exact nofun

theorem of_writeFile {tree after : FileTree} {path : Path} {contents : ByteArray} {done : Unit}
    (written : tree.writeFile path contents = (.ok done, after)) :
    after.read? path = some contents := by
  obtain ⟨changed, -, last⟩ := writeFile_eq_ok_iff.1 written
  rw [read?_eq_contents? (locate?_write? last), contents?_write? last, if_pos rfl]

/-- A file stays as it is while others are written. -/
theorem read?_of_writes {before after : FileTree} {paths : List Path}
    (writes : Writes paths before after) {path : Path} {contents : ByteArray}
    (reads : before.read? path = some contents)
    (elsewhere : ∀ other ∈ paths, path.place ≠ other.place) :
    after.read? path = some contents := by
  obtain ⟨leads, holds⟩ := of_read? reads
  have unwritten : ¬ ∃ other ∈ paths, path.place = other.place := by
    rintro ⟨other, member, same⟩
    exact elsewhere other member same
  rw [read?_eq_contents? (locate?_of_edits writes leads), writes.contents? unwritten]
  exact holds

/-- Texts written to different places are all there in the end. -/
theorem of_writeTexts {tree after : FileTree} {files : List (Path × String)}
    {paths : List Path} (distinct : (files.map fun file => file.1.place).Nodup)
    (written : tree.writeTexts files = (.ok paths, after)) :
    paths = files.map Prod.fst ∧
      ∀ file ∈ files, after.read? file.1 = some file.2.toUTF8 := by
  induction files generalizing tree paths with
  | nil =>
      cases written
      exact ⟨rfl, List.forall_mem_nil _⟩
  | cons file files inductionHypothesis =>
      obtain ⟨path, text⟩ := file
      rw [List.map_cons, List.nodup_cons] at distinct
      obtain ⟨changed, others, first, rest, rfl⟩ := writeTexts_cons_eq_ok_iff.1 written
      have writes := writes_writeTexts changed files
      rw [rest] at writes
      obtain ⟨same, later⟩ := inductionHypothesis distinct.2 rest
      refine ⟨by rw [same]; rfl, List.forall_mem_cons.2 ⟨?_, later⟩⟩
      refine read?_of_writes writes (of_writeFile first) ?_
      intro other member samePlace
      obtain ⟨file, isFile, isPath⟩ := List.mem_map.1 member
      refine distinct.1 (List.mem_map.2 ⟨file, isFile, ?_⟩)
      rw [isPath]
      exact samePlace.symm

/-! ## Copies -/

/-- The contents of files after one of them has been copied: the target is emptied before
the source is read. -/
def copyContents (contents : Place → Option ByteArray) (source target : Place) :
    Place → Option ByteArray := fun place =>
  if place = target then
    if source = target then some .empty else contents source
  else
    contents place

theorem of_copy? {tree after : FileTree} {source target : Path}
    (copied : tree.copy? source target = some after) :
    after.contents? = copyContents tree.contents? source.place target.place ∧
      after.locate? target = some target.place := by
  unfold copy? at copied
  split at copied
  · cases copied
  · rename_i isFile
    split at copied
    · cases copied
    · rename_i emptied isEmptied
      split at copied
      · cases copied
      · rename_i contents reads
        have holds := (of_read? reads).2
        rw [contents?_write? isEmptied] at holds
        refine ⟨funext fun place => ?_, locate?_write? copied⟩
        rw [contents?_write? copied, contents?_write? isEmptied, copyContents]
        by_cases here : place = target.place
        · rw [if_pos here, if_pos here]
          exact holds.symm
        · rw [if_neg here, if_neg here, if_neg here]

theorem contents?_makeParent (tree : FileTree) (path : Path) :
    (tree.makeParent path).2.contents? = tree.contents? :=
  funext fun _ => (makes_makeParent tree path).contents? id

theorem of_copyFile {tree after : FileTree} {source target : Path} {done : Unit}
    (copied : tree.copyFile source target = (.ok done, after)) :
    after.contents? = copyContents tree.contents? source.place target.place ∧
      after.locate? target = some target.place := by
  obtain ⟨changed, made, last⟩ := copyFile_eq_ok_iff.1 copied
  have parents := contents?_makeParent tree target
  rw [made] at parents
  rw [← parents]
  exact of_copy? last

/-- The contents of files after several have been copied, one after the other. -/
def copyAllContents (contents : Place → Option ByteArray) :
    List (Place × Place) → Place → Option ByteArray
  | [] => contents
  | (source, target) :: rest => copyAllContents (copyContents contents source target) rest

theorem of_copyFiles {tree after : FileTree} {files : List (Path × Path)} {targets : List Path}
    (copied : tree.copyFiles files = (.ok targets, after)) :
    after.contents? = copyAllContents tree.contents?
        (files.map fun file => (file.1.place, file.2.place)) ∧
      ∀ file ∈ files, after.locate? file.2 = some file.2.place := by
  induction files generalizing tree targets with
  | nil =>
      have same : tree = after := congrArg Prod.snd copied
      rw [same]
      exact ⟨rfl, List.forall_mem_nil _⟩
  | cons file files inductionHypothesis =>
      obtain ⟨source, target⟩ := file
      obtain ⟨changed, others, first, rest, -⟩ := copyFiles_cons_eq_ok_iff.1 copied
      have edits := writes_copyFiles changed files
      rw [rest] at edits
      obtain ⟨here, leads⟩ := of_copyFile first
      obtain ⟨later, leadAll⟩ := inductionHypothesis rest
      refine ⟨?_, List.forall_mem_cons.2 ⟨?_, leadAll⟩⟩
      · rw [later, here]
        rfl
      · exact locate?_of_edits edits leads

/-- Copies of files below one place to the same names below another one. -/
def moves (source target : Place) (files : List Place) : List (Place × Place) :=
  files.map fun names => (source ++ names, target ++ names)

section Moves

variable {source target : Place} {files : List Place} {names : Place}

theorem copyContents_of_ne (contents : Place → Option ByteArray) {read written place : Place}
    (elsewhere : place ≠ written) :
    copyContents contents read written place = contents place :=
  if_neg elsewhere

/-- A file of other names is left alone. -/
theorem copyAllContents_of_not_mem (contents : Place → Option ByteArray)
    (absent : names ∉ files) :
    copyAllContents contents (moves source target files) (target ++ names) =
      contents (target ++ names) := by
  induction files generalizing contents with
  | nil =>
      rfl
  | cons first files inductionHypothesis =>
      rw [List.mem_cons, not_or] at absent
      have elsewhere : target ++ names ≠ target ++ first :=
        fun same => absent.1 (List.append_cancel_left same)
      rw [moves, List.map_cons, copyAllContents]
      exact (inductionHypothesis _ absent.2).trans (copyContents_of_ne contents elsewhere)

/-- A file is delivered as it was unless it, or one before it, is written to its place. -/
theorem copyAllContents_of_mem (contents : Place → Option ByteArray)
    (sorted : files.Pairwise (· ≤ ·)) (distinct : files.Nodup) (member : names ∈ files)
    (apart : ∀ others ∈ files, others ≤ names → target ++ others ≠ source ++ names) :
    copyAllContents contents (moves source target files) (target ++ names) =
      contents (source ++ names) := by
  induction files generalizing contents with
  | nil =>
      cases member
  | cons first files inductionHypothesis =>
      rw [List.pairwise_cons] at sorted
      rw [List.nodup_cons] at distinct
      obtain ⟨apartHere, apartLater⟩ := List.forall_mem_cons.1 apart
      rw [moves, List.map_cons, copyAllContents]
      rcases List.mem_cons.1 member with here | later
      · have different : source ++ first ≠ target ++ first := by
          rw [here] at apartHere
          exact (apartHere (le_refl first)).symm
        rw [here]
        refine (copyAllContents_of_not_mem _ distinct.1).trans ?_
        rw [copyContents, if_pos rfl, if_neg different]
      · have before : first ≤ names := sorted.1 names later
        refine (inductionHypothesis _ sorted.2 distinct.2 later apartLater).trans ?_
        exact copyContents_of_ne contents (apartHere before).symm

/-- A file copied onto itself is empty afterwards. -/
theorem copyAllContents_self (contents : Place → Option ByteArray)
    (distinct : files.Nodup) (member : names ∈ files) :
    copyAllContents contents (moves source source files) (source ++ names) =
      some .empty := by
  induction files generalizing contents with
  | nil =>
      cases member
  | cons first files inductionHypothesis =>
      rw [List.nodup_cons] at distinct
      rw [moves, List.map_cons, copyAllContents]
      rcases List.mem_cons.1 member with here | later
      · rw [here]
        refine (copyAllContents_of_not_mem _ distinct.1).trans ?_
        rw [copyContents, if_pos rfl, if_pos rfl]
      · exact inductionHypothesis _ distinct.2 later

end Moves

/-- Whether a file that a directory offers is written over before it is read: it goes to
its own place, or a file before it in the order of names goes there. -/
def IsSpoiled (tree : FileTree) (directory destination : Path) (names : Place) : Prop :=
  (tree.offered? directory names).isSome = true ∧
    ∃ others ≤ names, (tree.offered? directory others).isSome = true ∧
      destination.place ++ others = directory.place ++ names

/-- Nothing is spoiled where neither directory is in the other one. -/
theorem not_isSpoiled_of_apart (tree : FileTree) {directory destination : Path}
    (notAbove : ¬ destination.place <+: directory.place)
    (notBelow : ¬ directory.place <+: destination.place) (names : Place) :
    ¬ tree.IsSpoiled directory destination names := by
  rintro ⟨-, others, -, -, same⟩
  have first : destination.place <+: directory.place ++ names := ⟨others, same⟩
  rcases List.prefix_or_prefix_of_prefix first (List.prefix_append _ names) with above | below
  · exact notAbove above
  · exact notBelow below

section Deliveries

variable {tree after : FileTree} {directory destination : Path} {targets : List Path}
  (copied : tree.copyFiles (tree.collectionPlan directory destination) = (.ok targets, after))

include copied

theorem contents?_of_collected :
    after.contents? = copyAllContents tree.contents?
      (moves directory.place destination.place (tree.listing directory)) := by
  rw [(of_copyFiles copied).1, collectionPlan_eq, List.map_map, moves]
  congr 1
  apply List.map_congr_left
  intro names member
  have listable : directory.IsListable := by
    by_contra unlistable
    have nothing : tree.listing directory = [] := if_neg fun isListed => unlistable isListed.1
    rw [nothing] at member
    cases member
  obtain ⟨nonempty, each⟩ := named_of_mem_listing member
  rw [Function.comp_apply, Path.place_join_names _ nonempty each,
    Path.place_join_names _ nonempty each, Path.place_listed listable]

theorem contents?_of_not_offered {names : Place} (absent : tree.offered? directory names = none) :
    after.contents? (destination.place ++ names) =
      tree.contents? (destination.place ++ names) := by
  rw [contents?_of_collected copied]
  apply copyAllContents_of_not_mem
  intro member
  obtain ⟨contents, offered⟩ := mem_listing_iff.1 member
  rw [absent] at offered
  cases offered

theorem locate?_of_offered {names : Place} {contents : ByteArray}
    (offered : tree.offered? directory names = some contents) :
    after.locate? (destination.join (.ofNames names)) =
      some (destination.join (.ofNames names)).place := by
  have member : names ∈ tree.listing directory := mem_listing_iff.2 ⟨contents, offered⟩
  refine (of_copyFiles copied).2 (directory.listed.join (.ofNames names), _) ?_
  rw [collectionPlan_eq]
  exact List.mem_map.2 ⟨names, member, rfl⟩

/-- A file that a directory offers and that is not spoiled is delivered as it was. -/
theorem contents?_of_offered {names : Place} {contents : ByteArray}
    (offered : tree.offered? directory names = some contents)
    (unspoiled : ¬ tree.IsSpoiled directory destination names) :
    after.contents? (destination.place ++ names) = some contents := by
  have member : names ∈ tree.listing directory := mem_listing_iff.2 ⟨contents, offered⟩
  have holds : tree.contents? (directory.place ++ names) = some contents := by
    rw [offered?] at offered
    split at offered
    · exact offered
    · cases offered
  rw [contents?_of_collected copied, ← holds]
  refine copyAllContents_of_mem _ (listing_sorted tree directory) nodup_listing member ?_
  intro others isOther before same
  exact unspoiled ⟨Option.isSome_iff_exists.2 ⟨contents, offered⟩, others, before,
    Option.isSome_iff_exists.2 (mem_listing_iff.1 isOther), same⟩

/-- A directory that is collected into itself is emptied. -/
theorem contents?_of_self (same : directory.place = destination.place) {names : Place}
    {contents : ByteArray} (offered : tree.offered? directory names = some contents) :
    after.contents? (destination.place ++ names) = some .empty := by
  have member : names ∈ tree.listing directory := mem_listing_iff.2 ⟨contents, offered⟩
  rw [contents?_of_collected copied, same]
  exact copyAllContents_self _ nodup_listing member

end Deliveries

end AheadOfTime.FileTree
