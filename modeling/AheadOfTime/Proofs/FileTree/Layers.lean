import AheadOfTime.Proofs.FileTree.Overlays
import AheadOfTime.Proofs.FileTree.Ways

/-!
# Layers

Directories that are apart from one another are laid over a destination layer by layer: where
several of them have a file, that of the last one stays.  Each directory is looked for when its
turn comes, so the directories that are made on the way of the destination count.
-/

namespace AheadOfTime

instance (first second : Path) : Decidable (first.Apart second) :=
  decidable_of_iff (¬ first.place <+: second.place ∧ ¬ second.place <+: first.place)
    ⟨fun both => ⟨both.1, both.2⟩, fun apart => ⟨apart.notAbove, apart.notBelow⟩⟩

namespace FileTree

/-- The directories that are there when their turn to be collected comes. -/
def directoriesFound (tree : FileTree) (destination : Path) : List Path → List Path
  | [] => []
  | directory :: rest =>
      let others := directoriesFound (tree.copyFiles (tree.collectionPlan directory destination)).2
        destination rest
      if tree.isDirectory directory then directory :: others else others

theorem directoriesFound_sublist (tree : FileTree) (destination : Path) (directories : List Path) :
    (tree.directoriesFound destination directories).Sublist directories := by
  induction directories generalizing tree with
  | nil =>
      exact .slnil
  | cons directory directories inductionHypothesis =>
      rw [directoriesFound]
      split
      · exact (inductionHypothesis _).cons_cons directory
      · exact (inductionHypothesis _).cons directory

theorem mem_directoriesFound_of_isDirectory {tree : FileTree} (destination : Path)
    {directories : List Path} {directory : Path} (member : directory ∈ directories)
    (there : tree.isDirectory directory = true) :
    directory ∈ tree.directoriesFound destination directories := by
  induction directories generalizing tree with
  | nil =>
      cases member
  | cons first directories inductionHypothesis =>
      have writes := writes_copyFiles tree (tree.collectionPlan first destination)
      rw [directoriesFound]
      rcases List.mem_cons.1 member with rfl | later
      · rw [if_pos there]
        exact List.mem_cons_self
      · have isFound := inductionHypothesis later (isDirectory_of_edits writes there)
        split
        · exact List.mem_cons_of_mem first isFound
        · exact isFound

/-- What is found is there after some edits. -/
theorem exists_follows_of_mem_directoriesFound {tree : FileTree} {destination : Path}
    {directories : List Path} {directory : Path}
    (isFound : directory ∈ tree.directoriesFound destination directories) :
    ∃ later, Follows tree later ∧ later.isDirectory directory = true := by
  induction directories generalizing tree with
  | nil =>
      cases isFound
  | cons first directories inductionHypothesis =>
      have writes := writes_copyFiles tree (tree.collectionPlan first destination)
      rw [directoriesFound] at isFound
      generalize (tree.copyFiles (tree.collectionPlan first destination)).2 = changed
        at isFound writes
      have ofLater : directory ∈ changed.directoriesFound destination directories →
          ∃ later, Follows tree later ∧ later.isDirectory directory = true := by
        intro isFoundLater
        obtain ⟨later, follows, there⟩ := inductionHypothesis isFoundLater
        exact ⟨later, writes.follows.trans follows, there⟩
      split at isFound
      · rename_i there
        rcases List.mem_cons.1 isFound with rfl | isFoundLater
        · exact ⟨tree, .done, there⟩
        · exact ofLater isFoundLater
      · exact ofLater isFound

/-- A directory that is found has been there, or its path goes up from where it has led nowhere,
or it has no files. -/
theorem of_mem_directoriesFound {tree : FileTree} {destination : Path}
    {directories : List Path} {directory : Path}
    (isFound : directory ∈ tree.directoriesFound destination directories) :
    tree.isDirectory directory = true ∨ tree.GoesUpFromNowhere directory ∨
      ∀ names, tree.contents? (directory.place ++ names) = none := by
  obtain ⟨later, follows, there⟩ := exists_follows_of_mem_directoriesFound isFound
  by_cases directoryBefore : tree.hasDirectory directory.place = true
  · rcases isDirectory_or_goesUpFromNowhere follows there directoryBefore with
      isDirectory | goesUp
    · exact .inl isDirectory
    · exact .inr (.inl goesUp)
  · refine .inr (.inr fun names => ?_)
    by_contra holds
    have someNode : tree.node? (directory.place ++ names) ≠ none := by
      intro nothing
      rw [contents?, nothing] at holds
      exact holds rfl
    have absent : names = [] := by
      by_contra nonempty
      exact directoryBefore (hasDirectory_of_append nonempty someNode)
    rw [absent, List.append_nil] at someNode
    exact directoryBefore (follows.hasDirectory_of_later someNode (isDirectory_iff.1 there).2)

/-- Whether nothing has changed outside a destination but that directories have been made on the
way there, where nothing was. -/
def KeepsOutside (destination : Path) (before after : FileTree) : Prop :=
  ∀ place, ¬ destination.place <+: place →
    after.node? place = before.node? place ∨
      destination.Visits place ∧ before.node? place = none ∧
        after.node? place = some .directory

namespace KeepsOutside

variable {destination : Path} {before between after : FileTree}

theorem refl (destination : Path) (tree : FileTree) : KeepsOutside destination tree tree :=
  fun _ _ => .inl rfl

theorem trans (first : KeepsOutside destination before between)
    (second : KeepsOutside destination between after) :
    KeepsOutside destination before after := by
  intro place outside
  rcases first place outside with same | ⟨visits, free, made⟩
  · rw [← same]
    exact second place outside
  · refine .inr ⟨visits, free, ?_⟩
    rcases second place outside with stays | ⟨-, nothing, -⟩
    · exact stays.trans made
    · rw [made] at nothing
      cases nothing

theorem of_writes {paths : List Path} (writes : Writes paths before after)
    (below : ∀ path ∈ paths, destination.IsBelow path) :
    KeepsOutside destination before after := by
  intro place outside
  have change := writes.nodeChange place
  generalize before.node? place = was at change ⊢
  generalize after.node? place = becomes at change ⊢
  cases change with
  | kept node =>
      exact .inl rfl
  | made allowed =>
      obtain ⟨path, member, visits⟩ := allowed
      refine .inr ⟨?_, rfl, rfl⟩
      rcases (below path member).visits visits with above | onWay
      · exact above
      · obtain ⟨names, same⟩ := (below path member).exists_place
        rw [same] at onWay
        exact Path.visits_of_prefix
          ((List.prefix_or_prefix_of_prefix onWay (List.prefix_append _ _)).resolve_right outside)
  | written allowed free contents =>
      obtain ⟨path, member, rfl⟩ := allowed
      obtain ⟨names, same⟩ := (below path member).exists_place
      rw [same] at outside
      exact absurd (List.prefix_append _ _) outside

theorem contents? (keeps : KeepsOutside destination before after) {place : Place}
    (outside : ¬ destination.place <+: place) :
    after.contents? place = before.contents? place := by
  rw [FileTree.contents?, FileTree.contents?]
  rcases keeps place outside with same | ⟨-, free, made⟩
  · rw [same]
  · rw [free, made]

theorem contents?_apart (keeps : KeepsOutside destination before after) {directory : Path}
    (apart : destination.Apart directory) (names : Place) :
    after.contents? (directory.place ++ names) = before.contents? (directory.place ++ names) := by
  refine keeps.contents? fun isPrefix => ?_
  rcases List.prefix_or_prefix_of_prefix isPrefix (List.prefix_append _ names) with above | below
  · exact apart.notAbove above
  · exact apart.notBelow below

end KeepsOutside

/-- Where the files of a directory are collected to, in the order of their names. -/
def targetsOf (tree : FileTree) (destination directory : Path) : List Path :=
  ((tree.filesBelow directory.place).mergeSort (· ≤ ·)).map fun names =>
    destination.join (.ofNames names)

section Targets

variable {tree : FileTree} {destination directory : Path}

theorem mem_targetsOf_iff {target : Path} :
    target ∈ tree.targetsOf destination directory ↔
      ∃ names, names ≠ [] ∧ (tree.contents? (directory.place ++ names)).isSome = true ∧
        target = destination.join (.ofNames names) := by
  rw [targetsOf, List.mem_map]
  constructor
  · rintro ⟨names, member, rfl⟩
    obtain ⟨nonempty, holds⟩ := mem_filesBelow_iff.1 (List.mem_mergeSort.1 member)
    exact ⟨names, nonempty, Option.isSome_iff_exists.2 holds, rfl⟩
  · rintro ⟨names, nonempty, holds, rfl⟩
    exact ⟨names, List.mem_mergeSort.2
      (mem_filesBelow_iff.2 ⟨nonempty, Option.isSome_iff_exists.1 holds⟩), rfl⟩

theorem ascending_targetsOf :
    (tree.targetsOf destination directory).Pairwise fun first second =>
      first.precedes second = true := by
  refine List.pairwise_map.2 ((ascending_filesBelow tree _).imp_of_mem ?_)
  intro first second isFirst isSecond before
  obtain ⟨nonempty, each⟩ := named_of_mem_filesBelow (List.mem_mergeSort.1 isFirst)
  obtain ⟨nonemptyToo, eachToo⟩ := named_of_mem_filesBelow (List.mem_mergeSort.1 isSecond)
  rw [Path.precedes_join_names _ nonempty nonemptyToo each eachToo]
  exact decide_eq_true before

theorem targetsOf_congr {other : FileTree}
    (same : ∀ names, other.contents? (directory.place ++ names) =
      tree.contents? (directory.place ++ names)) :
    other.targetsOf destination directory = tree.targetsOf destination directory := by
  have sorted : (other.filesBelow directory.place).mergeSort (· ≤ ·) =
      (tree.filesBelow directory.place).mergeSort (· ≤ ·) := by
    refine eq_of_ascending (ascending_filesBelow other _) (ascending_filesBelow tree _)
      fun names => ?_
    rw [List.mem_mergeSort, List.mem_mergeSort, mem_filesBelow_iff, mem_filesBelow_iff, same]
  rw [targetsOf, targetsOf, sorted]

end Targets

/-! ## Layers -/

/-- Whether the files of directories have been laid over those of a destination, the last
directory on top, and have been collected to the targets, directory by directory. -/
structure IsOverlay (tree : FileTree) (destination : Path) (directories targets : List Path)
    (after : FileTree) : Prop where
  contents : ∀ names, after.contents? (destination.place ++ names) =
    (directories.filterMap fun directory =>
      tree.contents? (directory.place ++ names)).getLast?.or
        (tree.contents? (destination.place ++ names))
  outside : KeepsOutside destination tree after
  targets : targets = directories.flatMap (tree.targetsOf destination)

/-- A layer at the bottom is laid over what was there, and the other layers over it. -/
theorem IsOverlay.cons {tree changed after : FileTree} {destination directory : Path}
    {directories targets : List Path}
    (lays : LaidOver (fun names => tree.contents? (directory.place ++ names)) destination.place
      tree changed)
    (keeps : KeepsOutside destination tree changed)
    (apart : ∀ other ∈ directories, destination.Apart other)
    (overlay : IsOverlay changed destination directories targets after) :
    IsOverlay tree destination (directory :: directories)
      (tree.targetsOf destination directory ++ targets) after := by
  constructor
  · intro names
    have others : (directories.filterMap fun other =>
        changed.contents? (other.place ++ names)) =
          directories.filterMap fun other => tree.contents? (other.place ++ names) :=
      List.filterMap_congr fun other member => keeps.contents?_apart (apart other member) names
    rw [overlay.contents, lays.below, others]
    cases here : tree.contents? (directory.place ++ names) with
    | none =>
        simp only [List.filterMap_cons, here, Option.none_or]
    | some contents =>
        simp only [List.filterMap_cons, here, List.getLast?_cons, Option.some_or]
        cases (directories.filterMap fun other =>
            tree.contents? (other.place ++ names)).getLast? with
        | none =>
            rfl
        | some later =>
            rfl
  · exact keeps.trans overlay.outside
  · rw [overlay.targets, List.flatMap_cons]
    congr 1
    exact List.flatMap_congr fun other member =>
      targetsOf_congr (keeps.contents?_apart (apart other member))

section Collected

variable {tree : FileTree} {destination : Path}

/-- A directory that is there is laid over the destination, unless it begins with a dot. -/
theorem of_copyFiles_isDirectory {changed : FileTree} {directory : Path} {targets : List Path}
    (apart : destination.Apart directory) (dotless : directory.parts.head? ≠ some ".")
    (there : tree.isDirectory directory = true)
    (copied : tree.copyFiles (tree.collectionPlan directory destination) =
      (.ok targets, changed)) :
    LaidOver (fun names => tree.contents? (directory.place ++ names)) destination.place tree
        changed ∧
      targets = tree.targetsOf destination directory := by
  have isListed : tree.IsListed directory :=
    ⟨⟨text_ne_empty_of_isDirectory there, dotless⟩, there⟩
  have offers : tree.offered? directory = fun names =>
      tree.contents? (directory.place ++ names) := funext fun _ => if_pos isListed
  constructor
  · rw [← offers]
    exact laidOver_of_copyFiles apart copied
  · rw [(of_copyFiles_eq_ok copied).1, collectionPlan_eq, List.map_map, listing,
      if_pos isListed]
    rfl

/-- A directory that is not there when its turn comes is skipped. -/
theorem copyFiles_of_not_isDirectory {directory : Path}
    (absent : ¬ tree.isDirectory directory = true) :
    tree.copyFiles (tree.collectionPlan directory destination) = (.ok [], tree) := by
  have nothing : tree.listing directory = [] := if_neg fun isListed => absent isListed.2
  rw [collectionPlan_eq, nothing]
  rfl

theorem isOverlay_of_collect {after : FileTree} {directories targets : List Path}
    (apart : ∀ directory ∈ directories, destination.Apart directory)
    (dotless : ∀ directory ∈ directories, directory.parts.head? ≠ some ".")
    (collected : tree.collect destination directories = (.ok targets, after)) :
    IsOverlay tree destination (tree.directoriesFound destination directories) targets after := by
  induction directories generalizing tree targets with
  | nil =>
      cases collected
      exact ⟨fun _ => rfl, .refl destination _, rfl⟩
  | cons directory directories inductionHypothesis =>
      obtain ⟨apartHere, apartLater⟩ := List.forall_mem_cons.1 apart
      obtain ⟨dotlessHere, dotlessLater⟩ := List.forall_mem_cons.1 dotless
      obtain ⟨layer, changed, others, copied, rest, rfl⟩ := collect_cons_eq_ok_iff.1 collected
      have writes := writes_copyFiles tree (tree.collectionPlan directory destination)
      have below : ∀ path ∈ (tree.collectionPlan directory destination).map Prod.snd,
          destination.IsBelow path :=
        List.forall_mem_map.2 fun file member => isBelow_of_mem_collectionPlan member
      rw [copied] at writes
      have overlay := inductionHypothesis apartLater dotlessLater rest
      rw [directoriesFound, copied]
      by_cases there : tree.isDirectory directory = true
      · obtain ⟨lays, isLayer⟩ := of_copyFiles_isDirectory apartHere dotlessHere there copied
        rw [if_pos there, isLayer]
        refine overlay.cons lays (.of_writes writes below) ?_
        exact fun other member => apartLater other ((directoriesFound_sublist _ _ _).subset member)
      · rw [copyFiles_of_not_isDirectory there] at copied
        cases copied
        rw [if_neg there]
        exact overlay

end Collected

/-- What has been collected is there. -/
theorem isFile_of_collect {tree after : FileTree} {destination : Path}
    {directories targets : List Path}
    (collected : tree.collect destination directories = (.ok targets, after)) :
    ∀ target ∈ targets, after.isFile target = true := by
  induction directories generalizing tree targets with
  | nil =>
      cases collected
      exact List.forall_mem_nil _
  | cons directory directories inductionHypothesis =>
      obtain ⟨layer, changed, others, copied, rest, rfl⟩ := collect_cons_eq_ok_iff.1 collected
      obtain ⟨rfl, there⟩ := of_copyFiles_eq_ok copied
      obtain ⟨written, -, writes⟩ := writes_collect changed destination directories
      rw [rest] at writes
      exact List.forall_mem_append.2
        ⟨List.forall_mem_map.2 fun file member => isFile_of_edits writes (there file member).2,
          inductionHypothesis rest⟩

/-- Directories are laid over a destination that is apart from them, layer by layer. Those that
are there when their turn comes count: all that have been there before, and else only such whose
paths go up from where they have led nowhere, or that have no files. Each file of the destination
has the contents that the last layer gives it, or has stayed as it was; outside nothing changes
but that directories are made on the way of the destination. The targets are those of all files
of all layers, ascending in each of them. -/
theorem collect_lays_layers {tree after : FileTree} {destination : Path}
    {directories targets : List Path}
    (apart : ∀ directory ∈ directories, destination.Apart directory)
    (dotless : ∀ directory ∈ directories, directory.parts.head? ≠ some ".")
    (collected : tree.collect destination directories = (.ok targets, after)) :
    IsOverlay tree destination (tree.directoriesFound destination directories) targets after ∧
      (tree.directoriesFound destination directories).Sublist directories ∧
      (∀ directory ∈ directories, tree.isDirectory directory = true →
        directory ∈ tree.directoriesFound destination directories) ∧
      (∀ directory ∈ tree.directoriesFound destination directories,
        tree.isDirectory directory = true ∨ tree.GoesUpFromNowhere directory ∨
          ∀ names, tree.contents? (directory.place ++ names) = none) ∧
      (∀ directory ∈ directories,
        ((tree.targetsOf destination directory).Pairwise fun first second =>
          first.precedes second = true) ∧
        ∀ target, target ∈ tree.targetsOf destination directory ↔
          ∃ names, names ≠ [] ∧ (tree.contents? (directory.place ++ names)).isSome = true ∧
            target = destination.join (.ofNames names)) ∧
      ∀ target ∈ targets, after.isFile target = true :=
  ⟨isOverlay_of_collect apart dotless collected,
    directoriesFound_sublist tree destination directories,
    fun _ member there => mem_directoriesFound_of_isDirectory destination member there,
    fun _ isFound => of_mem_directoriesFound isFound,
    fun _ _ => ⟨ascending_targetsOf, fun _ => mem_targetsOf_iff⟩,
    isFile_of_collect collected⟩

/-- Two directories that both have a file `f`, a third one, and a destination with a file of its
own. -/
def layeredTree : FileTree where
  entries :=
    [(["a"], .directory), (["a", "f"], .file "first".toUTF8),
      (["b"], .directory), (["b", "f"], .file "second".toUTF8),
      (["c"], .directory), (["c", "g"], .directory), (["c", "g", "h"], .file "deep".toUTF8),
      (["out"], .directory), (["out", "k"], .file "kept".toUTF8)]
  below := by decide
  distinct := by decide
  named := by decide +kernel
  rooted := by decide +kernel

theorem layeredTree_collected : ∃ after,
    layeredTree.collect ⟨"/out"⟩ [⟨"/a/"⟩, ⟨"/none"⟩, ⟨"/a/..//b"⟩, ⟨"/./c"⟩] =
        (.ok [⟨"/out/f"⟩, ⟨"/out/f"⟩, ⟨"/out/g/h"⟩], after) ∧
      after.contents? ["out", "f"] = some "second".toUTF8 ∧
      after.contents? ["out", "g", "h"] = some "deep".toUTF8 ∧
      after.contents? ["out", "k"] = some "kept".toUTF8 := by
  have collected :
      layeredTree.collect ⟨"/out"⟩ [⟨"/a/"⟩, ⟨"/none"⟩, ⟨"/a/..//b"⟩, ⟨"/./c"⟩] =
        (.ok [⟨"/out/f"⟩, ⟨"/out/f"⟩, ⟨"/out/g/h"⟩],
          (layeredTree.collect ⟨"/out"⟩ [⟨"/a/"⟩, ⟨"/none"⟩, ⟨"/a/..//b"⟩, ⟨"/./c"⟩]).2) :=
    Prod.ext (by decide +kernel) rfl
  have overlay := (collect_lays_layers (by decide +kernel) (by decide +kernel) collected).1
  have layers :
      layeredTree.directoriesFound ⟨"/out"⟩ [⟨"/a/"⟩, ⟨"/none"⟩, ⟨"/a/..//b"⟩, ⟨"/./c"⟩] =
        [⟨"/a/"⟩, ⟨"/a/..//b"⟩, ⟨"/./c"⟩] := by
    decide +kernel
  rw [layers] at overlay
  refine ⟨_, collected, (overlay.contents ["f"]).trans ?_,
    (overlay.contents ["g", "h"]).trans ?_, (overlay.contents ["k"]).trans ?_⟩
  · decide +kernel
  · decide +kernel
  · decide +kernel

/-- A directory with a file, and another one. -/
def detourTree : FileTree where
  entries :=
    [(["a"], .directory), (["a", "f"], .file "one".toUTF8),
      (["s"], .directory), (["s", "g"], .file "two".toUTF8)]
  below := by decide
  distinct := by decide
  named := by decide +kernel
  rooted := by decide +kernel

/-- On the way of a destination directories are made, through which a path leads to a directory
that it has not led to before, and which can be inside of a directory that is collected. A
directory that begins with a dot is skipped. -/
theorem detours_matter :
    ((∀ directory ∈ ([⟨"/a"⟩, ⟨"/x/../s"⟩] : List Path), (⟨"/x/../out"⟩ : Path).Apart directory) ∧
      (⟨"/a"⟩ : Path).Apart ⟨"/x/../s"⟩ ∧
      detourTree.contains ⟨"/x/../s"⟩ = false ∧
      (detourTree.collect ⟨"/x/../out"⟩ [⟨"/a"⟩, ⟨"/x/../s"⟩]).1 =
        .ok [⟨"/x/../out/f"⟩, ⟨"/x/../out/g"⟩] ∧
      detourTree.node? ["out", "g"] = none ∧
      (detourTree.collect ⟨"/x/../out"⟩ [⟨"/a"⟩, ⟨"/x/../s"⟩]).2.contents? ["out", "g"] =
        some "two".toUTF8) ∧
    ((⟨"/a/d/../../other"⟩ : Path).Apart ⟨"/a"⟩ ∧
      (detourTree.collect ⟨"/a/d/../../other"⟩ [⟨"/a"⟩]).1 = .ok [⟨"/a/d/../../other/f"⟩] ∧
      detourTree.node? ["a", "d"] = none ∧
      (detourTree.collect ⟨"/a/d/../../other"⟩ [⟨"/a"⟩]).2.node? ["a", "d"] = some .directory) ∧
    ((⟨"out"⟩ : Path).Apart ⟨"./s"⟩ ∧ detourTree.isFile ⟨"./s/g"⟩ = true ∧
      (detourTree.collect ⟨"out"⟩ [⟨"./s"⟩]).1 = .ok []) := by
  decide +kernel

end FileTree

end AheadOfTime
