import AheadOfTime.Artifacts
import AheadOfTime.Collection
import AheadOfTime.Proofs.FileTree.Edits

/-!
# What changes to a file tree leave alone

Making a directory makes directories on the way of its path where nothing was.  Writing
a file does this for its directory, and changes the place of the file, where no
directory was.  Everything else stays as it was.
-/

namespace AheadOfTime.FileTree

/-- Whether a tree has changed at most by making a directory at the end of a path, and
those on its way. -/
def Makes (path : Path) (before after : FileTree) : Prop :=
  Edits path.Visits (fun _ => False) before after

/-- Whether a tree has changed at most by writing files where paths lead, and making the
directories on their way. -/
def Writes (paths : List Path) (before after : FileTree) : Prop :=
  Edits (fun place => ∃ path ∈ paths, path.Visits place)
    (fun place => ∃ path ∈ paths, place = path.place) before after

theorem Writes.refl (paths : List Path) (tree : FileTree) : Writes paths tree tree :=
  .done

theorem Writes.append {first second : List Path} {before between after : FileTree}
    (firstWrites : Writes first before between) (secondWrites : Writes second between after) :
    Writes (first ++ second) before after := by
  refine Edits.trans (firstWrites.mono ?_ ?_) (secondWrites.mono ?_ ?_)
  · rintro place ⟨path, member, visits⟩
    exact ⟨path, List.mem_append_left _ member, visits⟩
  · rintro place ⟨path, member, same⟩
    exact ⟨path, List.mem_append_left _ member, same⟩
  · rintro place ⟨path, member, visits⟩
    exact ⟨path, List.mem_append_right _ member, visits⟩
  · rintro place ⟨path, member, same⟩
    exact ⟨path, List.mem_append_right _ member, same⟩

theorem Makes.writes {path : Path} {before after : FileTree} (makes : Makes path before after) :
    Writes [path] before after :=
  makes.mono (fun _ visits => ⟨path, List.mem_cons_self, visits⟩) fun _ never => never.elim

theorem isName_of_isNewName {name : String} (isNew : isNewName name = true) :
    Path.IsName name := by
  simp only [isNewName, Bool.and_eq_true, bne_iff_ne] at isNew
  exact ⟨isNew.1.1.1, isNew.1.1.2, isNew.1.2⟩

theorem placeFrom_empty (start : Place) {parts : List String}
    (empty : ∀ part ∈ parts, part = "") : Path.placeFrom start parts = start := by
  induction parts with
  | nil =>
      rfl
  | cons part parts inductionHypothesis =>
      obtain ⟨here, later⟩ := List.forall_mem_cons.1 empty
      rw [here]
      exact inductionHypothesis later

/-- Empty parts at the end lead nowhere else. -/
theorem placeFrom_dropEmptyEnd (start : Place) (parts : List String) :
    Path.placeFrom start (dropEmptyEnd parts) = Path.placeFrom start parts := by
  have split := List.takeWhile_append_dropWhile (p := (· == "")) (l := parts.reverse)
  have whole : dropEmptyEnd parts ++ (parts.reverse.takeWhile (· == "")).reverse = parts := by
    rw [dropEmptyEnd, ← List.reverse_append, split, List.reverse_reverse]
  have empty : ∀ part ∈ (parts.reverse.takeWhile (· == "")).reverse, part = "" := by
    intro part member
    have each := List.all_eq_true.1 List.all_takeWhile part (List.mem_reverse.1 member)
    exact beq_iff_eq.1 each
  have appended := Path.placeFrom_append start (dropEmptyEnd parts)
    (parts.reverse.takeWhile (· == "")).reverse
  rw [whole, placeFrom_empty _ empty] at appended
  exact appended.symm

theorem of_freePlace {tree : FileTree} {directory place : Place} {name : String}
    (isFree : tree.freePlace directory name = .ok place) :
    tree.hasDirectory directory = true ∧ isNewName name = true ∧
      place = directory ++ [name] ∧ tree.node? place = none := by
  unfold freePlace at isFree
  split at isFree
  · rename_i allowed
    simp only [Bool.and_eq_true, Option.isNone_iff_eq_none] at allowed
    rw [← Except.ok.inj isFree]
    exact ⟨allowed.1.1, allowed.1.2, rfl, allowed.2⟩
  · cases isFree

/-- A directory is made where its path leads, in a directory and where nothing was. -/
theorem of_makeDirectory {tree after : FileTree} {path : Path}
    (made : tree.makeDirectory path = .ok after) :
    ∃ directory name, tree.hasDirectory directory = true ∧ isNewName name = true ∧
      path.place = directory ++ [name] ∧ tree.node? path.place = none ∧
      after = tree.put path.place .directory := by
  unfold makeDirectory at made
  split at made
  · cases made
  · simp only at made
    split at made
    · cases made
    · rename_i name isLast
      cases walked : tree.walk [] (dropEmptyEnd path.parts).dropLast with
      | error fault =>
          rw [walked] at made
          cases made
      | ok directory =>
          rw [walked] at made
          cases found : tree.freePlace directory name with
          | error fault =>
              have failed := made
              simp only [bind, Except.bind, found] at failed
              cases failed
          | ok place =>
              simp only [bind, Except.bind, found, pure, Except.pure] at made
              obtain ⟨starts, isNew, isPlace, free⟩ := of_freePlace found
              have leads : path.place = place := by
                obtain ⟨front, whole⟩ := List.getLast?_eq_some_iff.1 isLast
                rw [whole, List.dropLast_concat] at walked
                rw [Path.place, ← placeFrom_dropEmptyEnd, whole, Path.placeFrom_append,
                  ← placeFrom_of_walk walked, isPlace]
                exact Path.stepPlace_of_isName directory (isName_of_isNewName isNew)
              refine ⟨directory, name, starts, isNew, leads.trans isPlace, ?_, ?_⟩
              · rw [leads]
                exact free
              · rw [leads]
                exact (Except.ok.inj made).symm

/-- A path that ends in a name in a directory leads where a node can be put. -/
theorem admits_place {tree : FileTree} {path : Path} {directory : Place} {name : String}
    (starts : tree.hasDirectory directory = true) (parts : path.place = directory ++ [name])
    (free : tree.node? path.place ≠ some .directory) : tree.Admits path.place where
  below := by
    rw [parts]
    exact List.append_ne_nil_of_right_ne_nil directory (List.cons_ne_nil name [])
  named := fun _ member => Path.isFileName_of_mem_place member
  parent := by
    rw [parts, List.dropLast_concat]
    exact starts
  free := beq_eq_false_iff_ne.2 free

theorem edits_makeDirectory {tree after : FileTree} {path : Path}
    (made : tree.makeDirectory path = .ok after) {allowed : Place → Prop}
    (here : allowed path.place) : Edits allowed (fun _ => False) tree after := by
  obtain ⟨directory, name, starts, -, parts, free, same⟩ := of_makeDirectory made
  have admits : tree.Admits path.place := by
    refine admits_place starts parts ?_
    rw [free]
    exact nofun
  rw [same]
  exact Edits.done.make admits here free

/-- Directories are made only where the paths of a chain lead. -/
theorem edits_makeChain (tree : FileTree) {paths : List Path} {allowed : Place → Prop}
    (each : ∀ path ∈ paths, allowed path.place) :
    Edits allowed (fun _ => False) tree (tree.makeChain paths).1 := by
  induction paths generalizing tree with
  | nil =>
      exact .done
  | cons path above inductionHypothesis =>
      obtain ⟨here, others⟩ := List.forall_mem_cons.1 each
      have chain := inductionHypothesis tree others
      rw [makeChain]
      split
      · exact .done
      · cases first : tree.makeDirectory path with
        | ok changed =>
            exact edits_makeDirectory first here
        | error fault =>
            cases fault with
            | blocked =>
                exact .done
            | missing =>
                cases rest : tree.makeChain above with
                | mk changed there =>
                    rw [rest] at chain
                    cases there with
                    | false =>
                        exact chain
                    | true =>
                        simp only
                        cases last : changed.makeDirectory path with
                        | ok made =>
                            exact chain.trans (edits_makeDirectory last here)
                        | error fault =>
                            exact chain

/-- The places of the paths above a path are on its way. -/
theorem visits_of_mem_ancestors {count : Nat} {path above : Path}
    (member : above ∈ ancestors count path) {place : Place} (visits : above.Visits place) :
    path.Visits place := by
  induction count generalizing path with
  | zero =>
      rw [ancestors, List.mem_singleton] at member
      rw [← member]
      exact visits
  | succ count inductionHypothesis =>
      rw [ancestors] at member
      cases isParent : path.parent? with
      | none =>
          rw [isParent, List.mem_singleton] at member
          rw [← member]
          exact visits
      | some parent =>
          rw [isParent] at member
          rcases List.mem_cons.1 member with same | higher
          · rw [← same]
            exact visits
          · exact Path.Visits.of_parent isParent (inductionHypothesis higher)

theorem makes_makeDirectories (tree : FileTree) (path : Path) :
    Makes path tree (tree.makeDirectories path).1 :=
  edits_makeChain tree fun above member =>
    visits_of_mem_ancestors member above.visits_place

theorem edits_makeParent (tree : FileTree) (path : Path) :
    Edits path.VisitsAbove (fun _ => False) tree (tree.makeParent path).2 := by
  rw [makeParent]
  cases isParent : path.parent? with
  | none =>
      exact .done
  | some parent =>
      have makes : Edits path.VisitsAbove (fun _ => False) tree (tree.makeDirectories parent).1 :=
        (makes_makeDirectories tree parent).mono
          (fun _ visits => ⟨parent, isParent, visits⟩) fun _ never => never
      cases done : tree.makeDirectories parent with
      | mk changed there =>
          rw [done] at makes
          simp only [done]
          cases there with
          | true =>
              exact makes
          | false =>
              exact makes

theorem makes_makeParent (tree : FileTree) (path : Path) :
    Makes path tree (tree.makeParent path).2 :=
  (edits_makeParent tree path).mono (fun _ above => above.visits) fun _ never => never

/-! ## Files -/

/-- Whether a path leads to a directory and ends in a name that a node in it can have. -/
structure LeadsInto (tree : FileTree) (path : Path) (directory : Place) (name : String) :
    Prop where
  usable : isUsablePath path = true
  way : ∃ front, path.parts = front ++ [name] ∧ tree.walk [] front = .ok directory
  starts : tree.hasDirectory directory = true
  isNew : isNewName name = true

theorem LeadsInto.place {tree : FileTree} {path : Path} {directory : Place} {name : String}
    (leads : tree.LeadsInto path directory name) : path.place = directory ++ [name] := by
  obtain ⟨front, whole, walked⟩ := leads.way
  rw [Path.place, whole, Path.placeFrom_append, ← placeFrom_of_walk walked]
  exact Path.stepPlace_of_isName directory (isName_of_isNewName leads.isNew)

theorem LeadsInto.admits {tree : FileTree} {path : Path} {directory : Place} {name : String}
    (leads : tree.LeadsInto path directory name) (free : tree.node? path.place ≠ some .directory) :
    tree.Admits path.place :=
  admits_place leads.starts leads.place free

/-- A path leads to what has been put at the end of it. -/
theorem LeadsInto.locate? {made written : Place → Prop} {before after : FileTree}
    {path : Path} {directory : Place} {name : String}
    (leads : before.LeadsInto path directory name) (edits : Edits made written before after)
    (there : after.node? path.place ≠ none) : after.locate? path = some path.place := by
  obtain ⟨front, whole, walked⟩ := leads.way
  obtain ⟨⟨⟨notEmpty, notHere⟩, notUp⟩, usable⟩ : ((name ≠ "" ∧ name ≠ ".") ∧ name ≠ "..") ∧
      isUsableName name = true := by
    simpa [isNewName] using leads.isNew
  have last : after.step directory name = .ok path.place := by
    obtain ⟨node, found⟩ := Option.ne_none_iff_exists'.1 there
    rw [leads.place] at found ⊢
    simp only [step, edits.hasDirectory leads.starts, usable, found, notEmpty, notHere, notUp,
      Bool.not_true, Bool.false_eq_true, if_false, decide_false, Bool.or_self]
  have way : after.walk [] path.parts = .ok path.place := by
    rw [whole, walk_append, walk_of_edits edits walked]
    simp only [walk, last]
  rw [FileTree.locate?, if_pos leads.usable, way]
  rfl

/-- A file is written where its path leads, in a directory and where no directory is. -/
theorem of_writable? {tree : FileTree} {path : Path} {place : Place}
    (writable : tree.writable? path = some place) :
    (∃ directory name, tree.LeadsInto path directory name) ∧ place = path.place ∧
      tree.node? path.place ≠ some .directory := by
  unfold writable? at writable
  split at writable
  · cases writable
  · rename_i usable
    split at writable
    · cases writable
    · rename_i name isLast
      obtain ⟨front, whole⟩ := List.getLast?_eq_some_iff.1 isLast
      rw [whole, List.dropLast_concat] at writable
      cases walked : tree.walk [] front with
      | error fault =>
          rw [walked] at writable
          cases writable
      | ok directory =>
          rw [walked] at writable
          simp only at writable
          split at writable
          · rename_i allowed
            simp only [Bool.and_eq_true, Bool.not_eq_true'] at allowed
            obtain ⟨⟨starts, isNew⟩, free⟩ := allowed
            have leads : tree.LeadsInto path directory name :=
              ⟨by simpa using usable, ⟨front, whole, walked⟩, starts, isNew⟩
            refine ⟨⟨directory, name, leads⟩, ?_, ?_⟩
            · rw [leads.place]
              exact (Option.some.inj writable).symm
            · rw [leads.place]
              exact beq_eq_false_iff_ne.1 free
          · cases writable

theorem of_write? {tree after : FileTree} {path : Path} {contents : ByteArray}
    (written : tree.write? path contents = some after) :
    (∃ directory name, tree.LeadsInto path directory name) ∧
      tree.node? path.place ≠ some .directory ∧
      after = tree.put path.place (.file contents) := by
  obtain ⟨place, writable, same⟩ := Option.map_eq_some_iff.1 written
  obtain ⟨leads, isPlace, free⟩ := of_writable? writable
  rw [isPlace] at same
  exact ⟨leads, free, same.symm⟩

theorem edits_write? {tree after : FileTree} {path : Path}
    {contents : ByteArray} (written : tree.write? path contents = some after) :
    Edits (fun _ => False) (fun place => place = path.place) tree after := by
  obtain ⟨⟨directory, name, leads⟩, free, same⟩ := of_write? written
  rw [same]
  refine .write .done (leads.admits free) ?_ contents
  rfl

theorem writes_write? {tree after : FileTree} {path : Path} {contents : ByteArray}
    (written : tree.write? path contents = some after) : Writes [path] tree after :=
  (edits_write? written).mono (fun _ never => never.elim)
    fun _ same => ⟨path, List.mem_cons_self, same⟩

theorem Writes.trans {paths : List Path} {before between after : FileTree}
    (first : Writes paths before between) (second : Writes paths between after) :
    Writes paths before after :=
  Edits.trans first second

/-- Writing a file changes the tree only at the place of the file, and on the way of the path
above it. -/
theorem edits_writeFile (tree : FileTree) (path : Path) (contents : ByteArray) :
    Edits path.VisitsAbove (fun place => place = path.place) tree
      (tree.writeFile path contents).2 := by
  have parent : Edits path.VisitsAbove (fun place => place = path.place) tree
      (tree.makeParent path).2 :=
    (edits_makeParent tree path).mono (fun _ above => above) fun _ never => never.elim
  rw [writeFile]
  cases made : tree.makeParent path with
  | mk result changed =>
      rw [made] at parent
      cases result with
      | error obstacle =>
          exact parent
      | ok done =>
          simp only
          cases written : changed.write? path contents with
          | none =>
              exact parent
          | some after =>
              exact parent.trans
                ((edits_write? written).mono (fun _ never => never.elim) fun _ here => here)

theorem writes_writeFile (tree : FileTree) (path : Path) (contents : ByteArray) :
    Writes [path] tree (tree.writeFile path contents).2 :=
  (edits_writeFile tree path contents).mono
    (fun _ above => ⟨path, List.mem_cons_self, above.visits⟩)
    fun _ same => ⟨path, List.mem_cons_self, same⟩

/-- A file is written once its directory is there, if there is a place for it then. -/
theorem writeFile_eq_ok_iff {tree after : FileTree} {path : Path} {contents : ByteArray} :
    tree.writeFile path contents = (.ok (), after) ↔
      ∃ changed, tree.makeParent path = (.ok (), changed) ∧
        changed.write? path contents = some after := by
  constructor
  · intro ends
    rw [writeFile] at ends
    cases made : tree.makeParent path with
    | mk result changed =>
        rw [made] at ends
        cases result with
        | error obstacle =>
            cases ends
        | ok done =>
            simp only at ends
            cases written : changed.write? path contents with
            | none =>
                rw [written] at ends
                cases ends
            | some final =>
                rw [written] at ends
                cases ends
                exact ⟨changed, rfl, written⟩
  · rintro ⟨changed, made, written⟩
    simp only [writeFile, made, written]

/-- Texts are written one after the other, each into what the one before it has left. -/
theorem writeTexts_cons_eq_ok_iff {tree after : FileTree} {path : Path} {text : String}
    {files : List (Path × String)} {paths : List Path} :
    tree.writeTexts ((path, text) :: files) = (.ok paths, after) ↔
      ∃ changed others, tree.writeFile path text.toUTF8 = (.ok (), changed) ∧
        changed.writeTexts files = (.ok others, after) ∧ paths = path :: others := by
  constructor
  · intro ends
    rw [writeTexts, writeText] at ends
    cases first : tree.writeFile path text.toUTF8 with
    | mk result changed =>
        rw [first] at ends
        cases result with
        | error obstacle =>
            cases ends
        | ok done =>
            simp only at ends
            cases rest : changed.writeTexts files with
            | mk result final =>
                rw [rest] at ends
                cases result with
                | error obstacle =>
                    cases ends
                | ok others =>
                    cases ends
                    exact ⟨changed, others, rfl, rest, rfl⟩
  · rintro ⟨changed, others, first, rest, rfl⟩
    simp only [writeTexts, writeText, first, rest]

/-- Writing texts changes the tree only where they are written, and on the way there. -/
theorem writes_writeTexts (tree : FileTree) (files : List (Path × String)) :
    Writes (files.map Prod.fst) tree (tree.writeTexts files).2 := by
  induction files generalizing tree with
  | nil =>
      exact .refl _ tree
  | cons file files inductionHypothesis =>
      obtain ⟨path, text⟩ := file
      have here := writes_writeFile tree path text.toUTF8
      rw [writeTexts, writeText]
      cases written : tree.writeFile path text.toUTF8 with
      | mk result changed =>
          rw [written] at here
          have first : Writes (path :: files.map Prod.fst) tree changed :=
            here.append (Writes.refl _ changed)
          cases result with
          | error obstacle =>
              exact first
          | ok done =>
              have later := here.append (inductionHypothesis changed)
              simp only
              cases rest : changed.writeTexts files with
              | mk result final =>
                  rw [rest] at later
                  cases result with
                  | error obstacle =>
                      exact later
                  | ok paths =>
                      exact later

/-- A file is copied once the directory of the target is there, if it can be copied then. -/
theorem copyFile_eq_ok_iff {tree after : FileTree} {source target : Path} :
    tree.copyFile source target = (.ok (), after) ↔
      ∃ changed, tree.makeParent target = (.ok (), changed) ∧
        changed.copy? source target = some after := by
  constructor
  · intro ends
    rw [copyFile] at ends
    cases made : tree.makeParent target with
    | mk result changed =>
        rw [made] at ends
        cases result with
        | error obstacle =>
            cases ends
        | ok done =>
            simp only at ends
            cases copied : changed.copy? source target with
            | none =>
                rw [copied] at ends
                cases ends
            | some final =>
                rw [copied] at ends
                cases ends
                exact ⟨changed, rfl, copied⟩
  · rintro ⟨changed, made, copied⟩
    simp only [copyFile, made, copied]

/-- Files are copied one after the other, each into what the one before it has left. -/
theorem copyFiles_cons_eq_ok_iff {tree after : FileTree} {source target : Path}
    {files : List (Path × Path)} {targets : List Path} :
    tree.copyFiles ((source, target) :: files) = (.ok targets, after) ↔
      ∃ changed others, tree.copyFile source target = (.ok (), changed) ∧
        changed.copyFiles files = (.ok others, after) ∧ targets = target :: others := by
  constructor
  · intro ends
    rw [copyFiles] at ends
    cases first : tree.copyFile source target with
    | mk result changed =>
        rw [first] at ends
        cases result with
        | error fault =>
            cases ends
        | ok done =>
            simp only at ends
            cases rest : changed.copyFiles files with
            | mk result final =>
                rw [rest] at ends
                cases result with
                | error fault =>
                    cases ends
                | ok others =>
                    cases ends
                    exact ⟨changed, others, rfl, rest, rfl⟩
  · rintro ⟨changed, others, first, rest, rfl⟩
    simp only [copyFiles, first, rest]

theorem writes_copyFile (tree : FileTree) (source target : Path) :
    Writes [target] tree (tree.copyFile source target).2 := by
  have parent := (makes_makeParent tree target).writes
  rw [copyFile]
  cases made : tree.makeParent target with
  | mk result changed =>
      rw [made] at parent
      cases result with
      | error obstacle =>
          exact parent
      | ok done =>
          simp only
          cases copied : changed.copy? source target with
          | none =>
              exact parent
          | some after =>
              refine parent.trans ?_
              unfold copy? at copied
              split at copied
              · cases copied
              · split at copied
                · cases copied
                · rename_i emptied isEmptied
                  split at copied
                  · cases copied
                  · exact (writes_write? isEmptied).trans (writes_write? copied)

/-- Copying files changes the tree only at the targets, and on the way there. -/
theorem writes_copyFiles (tree : FileTree) (files : List (Path × Path)) :
    Writes (files.map Prod.snd) tree (tree.copyFiles files).2 := by
  induction files generalizing tree with
  | nil =>
      exact .refl _ tree
  | cons file files inductionHypothesis =>
      obtain ⟨source, target⟩ := file
      have here := writes_copyFile tree source target
      rw [copyFiles]
      cases copied : tree.copyFile source target with
      | mk result changed =>
          rw [copied] at here
          have first : Writes (target :: files.map Prod.snd) tree changed :=
            here.append (Writes.refl _ changed)
          cases result with
          | error fault =>
              exact first
          | ok done =>
              have later := here.append (inductionHypothesis changed)
              simp only
              cases rest : changed.copyFiles files with
              | mk result final =>
                  rw [rest] at later
                  cases result with
                  | error fault =>
                      exact later
                  | ok targets =>
                      exact later

/-- Whether a path is the place of something collected into a directory. -/
def IsCollected (destination target : Path) : Prop :=
  ∃ rest, target = destination.join (.ofComponents rest)

theorem isCollected_of_mem_collectionPlan {tree : FileTree} {directory destination : Path}
    {source target : Path}
    (member : (source, target) ∈ tree.collectionPlan directory destination) :
    IsCollected destination target := by
  obtain ⟨file, -, isTarget⟩ := List.mem_filterMap.1 member
  obtain ⟨moved, isMoved, same⟩ := Option.map_eq_some_iff.1 isTarget
  obtain ⟨rest, -, isJoin⟩ := Option.map_eq_some_iff.1 isMoved
  exact ⟨rest, (Prod.mk.inj same).2.symm.trans isJoin.symm⟩

/-- Directories are collected by copying the files of the first one, and then those that the
others have by then. -/
theorem collect_cons_eq_ok_iff {tree after : FileTree} {destination directory : Path}
    {directories targets : List Path} :
    tree.collect destination (directory :: directories) = (.ok targets, after) ↔
      ∃ copied changed others,
        tree.copyFiles (tree.collectionPlan directory destination) = (.ok copied, changed) ∧
        changed.collect destination directories = (.ok others, after) ∧
        targets = copied ++ others := by
  constructor
  · intro collects
    rw [collect] at collects
    cases copies : tree.copyFiles (tree.collectionPlan directory destination) with
    | mk result changed =>
        rw [copies] at collects
        cases result with
        | error fault =>
            cases collects
        | ok copied =>
            simp only at collects
            cases later : changed.collect destination directories with
            | mk result final =>
                rw [later] at collects
                cases result with
                | error fault =>
                    cases collects
                | ok others =>
                    cases collects
                    exact ⟨copied, changed, others, rfl, later, rfl⟩
  · rintro ⟨copied, changed, others, copies, later, rfl⟩
    simp only [collect, copies, later]

/-- Collecting changes the tree only at places of collected files, and on the way there. -/
theorem writes_collect (tree : FileTree) (destination : Path) (directories : List Path) :
    ∃ targets, (∀ target ∈ targets, IsCollected destination target) ∧
      Writes targets tree (tree.collect destination directories).2 := by
  induction directories generalizing tree with
  | nil =>
      exact ⟨[], List.forall_mem_nil _, .refl _ tree⟩
  | cons directory directories inductionHypothesis =>
      have here := writes_copyFiles tree (tree.collectionPlan directory destination)
      have collected : ∀ target ∈ (tree.collectionPlan directory destination).map Prod.snd,
          IsCollected destination target :=
        List.forall_mem_map.2 fun file member => isCollected_of_mem_collectionPlan member
      rw [collect]
      cases copied : tree.copyFiles (tree.collectionPlan directory destination) with
      | mk result changed =>
          rw [copied] at here
          cases result with
          | error fault =>
              exact ⟨_, collected, here⟩
          | ok targets =>
              obtain ⟨laterTargets, laterCollected, later⟩ := inductionHypothesis changed
              refine ⟨_ ++ laterTargets,
                List.forall_mem_append.2 ⟨collected, laterCollected⟩, ?_⟩
              have both := here.append later
              simp only
              cases rest : changed.collect destination directories with
              | mk result final =>
                  rw [rest] at both
                  cases result with
                  | error fault =>
                      exact both
                  | ok others =>
                      exact both

end AheadOfTime.FileTree
