import AheadOfTime.Proofs.Collection

/-!
# Where there is room for files

A path has room for a file if its directory is there and no directory is in the place of
the file.  Files are written and copied where there is room, and writing them takes no room
from others.
-/

namespace AheadOfTime.FileTree

theorem isDirectory_of_edits {made written : Place → Prop} {before after : FileTree}
    (edits : Edits made written before after) {path : Path}
    (there : before.isDirectory path = true) : after.isDirectory path = true := by
  obtain ⟨leads, directory⟩ := isDirectory_iff.1 there
  exact isDirectory_iff.2 ⟨locate?_of_edits edits leads, edits.hasDirectory directory⟩

/-- A way that can be gone can be gone up to any part of it. -/
theorem walk_of_walk_append {tree : FileTree} {start place : Place} {first second : List String}
    (leads : tree.walk start (first ++ second) = .ok place) :
    ∃ between, tree.walk start first = .ok between ∧ tree.walk between second = .ok place := by
  rw [walk_append] at leads
  cases walked : tree.walk start first with
  | error fault =>
      rw [walked] at leads
      cases leads
  | ok between =>
      rw [walked] at leads
      exact ⟨between, rfl, leads⟩

theorem dropEmptyEnd_append (parts : List String) :
    ∃ rest, dropEmptyEnd parts ++ rest = parts := by
  refine ⟨(parts.reverse.takeWhile (· == "")).reverse, ?_⟩
  rw [dropEmptyEnd, ← List.reverse_append, List.takeWhile_append_dropWhile,
    List.reverse_reverse]

/-- No directory is made where one is. -/
theorem makeDirectory_of_isDirectory {tree : FileTree} {path : Path}
    (there : tree.isDirectory path = true) : tree.makeDirectory path = .error .blocked := by
  obtain ⟨leads, directory⟩ := isDirectory_iff.1 there
  obtain ⟨usable, walked⟩ := locate?_eq_some_iff.1 leads
  obtain ⟨rest, whole⟩ := dropEmptyEnd_append path.parts
  rw [← whole] at walked
  obtain ⟨place, walkedParts, -⟩ := walk_of_walk_append walked
  have isPlace : place = path.place := by
    rw [placeFrom_of_walk walkedParts, placeFrom_dropEmptyEnd]
    rfl
  rw [makeDirectory, usable]
  simp only [Bool.not_true, Bool.false_eq_true, if_false]
  cases last : (dropEmptyEnd path.parts).getLast? with
  | none =>
      rfl
  | some name =>
      obtain ⟨front, isFront⟩ := List.getLast?_eq_some_iff.1 last
      rw [isFront] at walkedParts
      obtain ⟨between, walkedFront, walkedLast⟩ := walk_of_walk_append walkedParts
      have taken : tree.step between name = .ok place := by
        simp only [walk] at walkedLast
        cases stepped : tree.step between name with
        | error fault =>
            rw [stepped] at walkedLast
            cases walkedLast
        | ok next =>
            rw [stepped] at walkedLast
            exact walkedLast
      have notFree : tree.freePlace between name = .error .blocked := by
        rw [freePlace]
        cases isNew : isNewName name with
        | false =>
            simp
        | true =>
            have same : between ++ [name] = path.place := by
              rw [← isPlace, (of_step taken).2.1]
              exact (Path.stepPlace_of_isName between (isName_of_isNewName isNew)).symm
            have found : tree.node? (between ++ [name]) = some .directory := by
              rw [same]
              exact beq_iff_eq.1 directory
            simp [found]
      simp only [isFront, List.dropLast_concat, walkedFront, notFree, bind, Except.bind]

theorem ancestors_eq_cons (count : Nat) (path : Path) :
    ∃ above, ancestors count path = path :: above := by
  cases count with
  | zero =>
      exact ⟨[], rfl⟩
  | succ count =>
      rw [ancestors]
      cases path.parent? with
      | none =>
          exact ⟨[], rfl⟩
      | some parent =>
          exact ⟨_, rfl⟩

theorem makeDirectories_of_isDirectory {tree : FileTree} {path : Path}
    (there : tree.isDirectory path = true) : tree.makeDirectories path = (tree, true) := by
  obtain ⟨above, whole⟩ := ancestors_eq_cons path.components.length path
  have filled : path.text ≠ "" := by
    intro empty
    have usable := (locate?_eq_some_iff.1 (isDirectory_iff.1 there).1).1
    rw [isUsablePath, empty] at usable
    cases usable
  rw [makeDirectories, whole, makeChain, if_neg filled, makeDirectory_of_isDirectory there,
    there]

/-- Whether a file can be written at a path: the directory above it is there, and no
directory is in its place. -/
structure HasRoom (tree : FileTree) (path : Path) : Prop where
  parent : ∃ parent, path.parent? = some parent ∧ tree.isDirectory parent = true
  leads : ∃ directory name, tree.LeadsInto path directory name
  free : tree.node? path.place ≠ some .directory

/-- Whether only files have been written, and no directory was made. -/
def OnlyWrites (paths : List Path) (before after : FileTree) : Prop :=
  Edits (fun _ => False) (fun place => ∃ path ∈ paths, place = path.place) before after

theorem OnlyWrites.append {first second : List Path} {before between after : FileTree}
    (firstWrites : OnlyWrites first before between)
    (secondWrites : OnlyWrites second between after) :
    OnlyWrites (first ++ second) before after := by
  refine Edits.trans (firstWrites.mono (fun _ never => never) ?_)
    (secondWrites.mono (fun _ never => never) ?_)
  · rintro place ⟨path, member, same⟩
    exact ⟨path, List.mem_append_left _ member, same⟩
  · rintro place ⟨path, member, same⟩
    exact ⟨path, List.mem_append_right _ member, same⟩

section Room

variable {before after tree : FileTree} {paths : List Path} {path : Path}

theorem LeadsInto.of_edits {made written : Place → Prop} {directory : Place} {name : String}
    (leads : before.LeadsInto path directory name) (edits : Edits made written before after) :
    after.LeadsInto path directory name := by
  obtain ⟨front, whole, walked⟩ := leads.way
  exact ⟨leads.usable, ⟨front, whole, walk_of_edits edits walked⟩,
    edits.hasDirectory leads.starts, leads.isNew⟩

/-- Writing files takes no room from others. -/
theorem HasRoom.of_onlyWrites (room : before.HasRoom path)
    (writes : OnlyWrites paths before after) : after.HasRoom path := by
  obtain ⟨parent, isParent, there⟩ := room.parent
  obtain ⟨directory, name, leads⟩ := room.leads
  refine ⟨⟨parent, isParent, isDirectory_of_edits writes there⟩,
    ⟨directory, name, leads.of_edits writes⟩, ?_⟩
  have free := room.free
  have change := writes.nodeChange path.place
  generalize before.node? path.place = was at change free
  generalize after.node? path.place = becomes at change
  cases change with
  | kept node =>
      exact free
  | made never =>
      exact never.elim
  | written allowed _ contents =>
      exact nofun

/-- Files that are there do not vanish. -/
theorem isFile_of_edits {made written : Place → Prop} (edits : Edits made written before after)
    (there : before.isFile path = true) : after.isFile path = true := by
  rw [isFile, Option.isSome_iff_exists] at there ⊢
  obtain ⟨contents, reads⟩ := there
  obtain ⟨leads, holds⟩ := of_read? reads
  rw [read?_eq_contents? (locate?_of_edits edits leads)]
  exact edits.exists_contents? holds

theorem makeParent_of_hasRoom (room : tree.HasRoom path) :
    tree.makeParent path = (.ok (), tree) := by
  obtain ⟨parent, isParent, there⟩ := room.parent
  rw [makeParent, isParent]
  simp only [makeDirectories_of_isDirectory there]

theorem LeadsInto.write? {directory : Place} {name : String}
    (leads : tree.LeadsInto path directory name)
    (free : tree.node? path.place ≠ some .directory) (contents : ByteArray) :
    tree.write? path contents = some (tree.put path.place (.file contents)) := by
  obtain ⟨front, whole, walked⟩ := leads.way
  have noDirectory : tree.hasDirectory (directory ++ [name]) = false := by
    rw [hasDirectory, beq_eq_false_iff_ne, ← leads.place]
    exact free
  have writable : tree.writable? path = some path.place := by
    rw [writable?, leads.usable, whole, List.getLast?_concat, List.dropLast_concat]
    simp only [Bool.not_true, Bool.false_eq_true, if_false, walked, leads.starts, leads.isNew,
      noDirectory, Bool.not_false, Bool.and_self, if_true, leads.place]
  rw [FileTree.write?, writable]
  rfl

theorem write?_of_hasRoom (room : tree.HasRoom path) (contents : ByteArray) :
    tree.write? path contents = some (tree.put path.place (.file contents)) := by
  obtain ⟨directory, name, leads⟩ := room.leads
  exact leads.write? room.free contents

theorem onlyWrites_put (room : tree.HasRoom path) (contents : ByteArray) :
    OnlyWrites [path] tree (tree.put path.place (.file contents)) := by
  obtain ⟨directory, name, leads⟩ := room.leads
  exact Edits.done.write (leads.admits room.free) ⟨path, List.mem_cons_self, rfl⟩ contents

theorem writeFile_of_hasRoom (room : tree.HasRoom path) (contents : ByteArray) :
    tree.writeFile path contents = (.ok (), tree.put path.place (.file contents)) := by
  rw [writeFile, makeParent_of_hasRoom room]
  simp only [write?_of_hasRoom room]

end Room

/-- There is room for names in a directory that is there. -/
theorem hasRoom_join {tree : FileTree} {directory : Path} (listable : directory.IsListable)
    (ends : directory.EndsInName) (there : tree.isDirectory directory = true) {name : String}
    (isFileName : Path.IsFileName name) (usable : isUsableName name = true)
    (zeroless : '\x00' ∉ name.toList)
    (free : tree.node? (directory.place ++ [name]) ≠ some .directory) :
    tree.HasRoom (directory.join ⟨name⟩) := by
  have relative := Path.isAbsolute_of_isFileName isFileName
  obtain ⟨leads, starts⟩ := isDirectory_iff.1 there
  obtain ⟨usableDirectory, walked⟩ := locate?_eq_some_iff.1 leads
  have usablePath : isUsablePath (directory.join ⟨name⟩) = true := by
    simp only [isUsablePath, Bool.and_eq_true, bne_iff_ne, Bool.not_eq_true',
      List.contains_eq_mem, decide_eq_false_iff_not] at usableDirectory ⊢
    rw [Path.text_join directory relative]
    constructor
    · intro empty
      exact listable.1 (String.append_eq_empty_iff.1 (String.append_eq_empty_iff.1 empty).1).1
    · rw [String.toList_append, String.toList_append, List.mem_append, List.mem_append,
        not_or, not_or]
      refine ⟨⟨usableDirectory.2, ?_⟩, zeroless⟩
      rw [Path.separator]
      split
      · decide
      · decide
  have isNew : isNewName name = true := by
    obtain ⟨⟨notEmpty, notHere, notUp⟩, -⟩ := isFileName
    simp only [isNewName, Bool.and_eq_true, bne_iff_ne]
    exact ⟨⟨⟨notEmpty, notHere⟩, notUp⟩, usable⟩
  have way : ∃ front, (directory.join ⟨name⟩).parts = front ++ [name] ∧
      tree.walk [] front = .ok directory.place := by
    obtain ⟨front, isFront, joined⟩ := directory.parts_join relative
    rw [Path.parts_of_isFileName isFileName] at joined
    refine ⟨front, joined, ?_⟩
    rcases isFront with same | same
    · rw [← same]
      exact walked
    · rw [same] at walked
      obtain ⟨place, walkedFront, -⟩ := walk_of_walk_append walked
      rw [walkedFront, placeFrom_of_walk walkedFront, Path.placeFrom_front (.inr same)]
  refine ⟨⟨directory, Path.parent?_join listable ends isFileName, there⟩,
    ⟨directory.place, name, usablePath, way, starts, isNew⟩, ?_⟩
  rw [Path.place_join_name directory isFileName]
  exact free

/-- Texts are written where there is room for all of them. -/
theorem exists_writeTexts {tree : FileTree} {files : List (Path × String)}
    (room : ∀ file ∈ files, tree.HasRoom file.1) :
    ∃ paths after, tree.writeTexts files = (.ok paths, after) ∧
      OnlyWrites (files.map Prod.fst) tree after := by
  induction files generalizing tree with
  | nil =>
      exact ⟨[], tree, rfl, .done⟩
  | cons file files inductionHypothesis =>
      obtain ⟨path, text⟩ := file
      obtain ⟨here, others⟩ := List.forall_mem_cons.1 room
      have writes := onlyWrites_put here text.toUTF8
      obtain ⟨paths, after, written, later⟩ := inductionHypothesis fun file member =>
        (others file member).of_onlyWrites writes
      refine ⟨path :: paths, after, ?_, writes.append later⟩
      rw [writeTexts, writeText, writeFile_of_hasRoom here]
      simp only [written]

theorem exists_copyFile {tree : FileTree} {source target : Path}
    (there : tree.isFile source = true) (room : tree.HasRoom target) :
    ∃ after, tree.copyFile source target = (.ok (), after) ∧
      OnlyWrites [target] tree after := by
  have emptied := onlyWrites_put room .empty
  have thereToo := isFile_of_edits emptied there
  obtain ⟨contents, reads⟩ := Option.isSome_iff_exists.1 thereToo
  have roomToo := room.of_onlyWrites emptied
  refine ⟨_, ?_, Edits.trans emptied (onlyWrites_put roomToo contents)⟩
  rw [copyFile, makeParent_of_hasRoom room]
  simp only [copy?, there, Bool.not_true, Bool.false_eq_true, if_false,
    write?_of_hasRoom room, reads, write?_of_hasRoom roomToo]

/-- Files that are there are copied where there is room for all of them. -/
theorem exists_copyFiles {tree : FileTree} {files : List (Path × Path)}
    (there : ∀ file ∈ files, tree.isFile file.1 = true)
    (room : ∀ file ∈ files, tree.HasRoom file.2) :
    ∃ targets after, tree.copyFiles files = (.ok targets, after) ∧
      OnlyWrites (files.map Prod.snd) tree after := by
  induction files generalizing tree with
  | nil =>
      exact ⟨[], tree, rfl, .done⟩
  | cons file files inductionHypothesis =>
      obtain ⟨source, target⟩ := file
      obtain ⟨thereHere, thereLater⟩ := List.forall_mem_cons.1 there
      obtain ⟨here, others⟩ := List.forall_mem_cons.1 room
      obtain ⟨changed, copied, writes⟩ := exists_copyFile thereHere here
      obtain ⟨targets, after, copiedLater, later⟩ := inductionHypothesis
        (fun file member => isFile_of_edits writes (thereLater file member))
        fun file member => (others file member).of_onlyWrites writes
      refine ⟨target :: targets, after, ?_, writes.append later⟩
      rw [copyFiles, copied]
      simp only [copiedLater]

end AheadOfTime.FileTree
