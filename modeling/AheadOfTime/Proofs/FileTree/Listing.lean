import AheadOfTime.Proofs.FileTree.Edits
import AheadOfTime.Proofs.Path.Components

/-!
# What a directory offers

A directory that is there offers the files below it for collection, in the order of their
names and each of them once.  A directory that is written with a dot at its beginning, or
with nothing, offers none.
-/

namespace AheadOfTime.FileTree

theorem mem_of_lookup {entries : List (Place × Node)} {place : Place} {node : Node}
    (found : entries.lookup place = some node) : (place, node) ∈ entries := by
  obtain ⟨before, after, whole, -⟩ := List.lookup_eq_some_iff.1 found
  rw [whole]
  exact List.mem_append_right _ List.mem_cons_self

theorem lookup_of_mem {entries : List (Place × Node)} (distinct : (entries.map Prod.fst).Nodup)
    {place : Place} {node : Node} (member : (place, node) ∈ entries) :
    entries.lookup place = some node := by
  induction entries with
  | nil =>
      cases member
  | cons entry entries inductionHypothesis =>
      obtain ⟨found, first⟩ := entry
      rw [List.map_cons, List.nodup_cons] at distinct
      rcases List.mem_cons.1 member with here | later
      · cases here
        exact List.lookup_cons_self
      · have different : (place == found) = false := by
          rw [beq_eq_false_iff_ne]
          intro same
          rw [← same] at distinct
          exact distinct.1 (List.mem_map.2 ⟨_, later, rfl⟩)
        rw [List.lookup_cons, different]
        exact inductionHypothesis distinct.2 later

theorem node?_of_ne_nil (tree : FileTree) {place : Place} (below : place ≠ []) :
    tree.node? place = tree.entries.lookup place :=
  if_neg below

theorem below?_eq_some_iff {base place names : Place} :
    below? base place = some names ↔ place = base ++ names ∧ names ≠ [] := by
  induction base generalizing place with
  | nil =>
      cases place with
      | nil =>
          simp [below?]
      | cons name place =>
          rw [below?, Option.some_inj, List.nil_append]
          constructor
          · intro same
            rw [← same]
            exact ⟨rfl, List.cons_ne_nil _ _⟩
          · exact fun both => both.1
  | cons expected base inductionHypothesis =>
      cases place with
      | nil =>
          simp [below?]
      | cons name place =>
          by_cases same : name = expected
          · simp [below?, same, inductionHypothesis]
          · simp [below?, same]

def listed? (place : Place) (entry : Place × Node) : Option Place :=
  match entry.2 with
  | .directory => none
  | .file _ => below? place entry.1

theorem listed?_eq_some_iff {place names : Place} {entry : Place × Node} :
    listed? place entry = some names ↔
      entry.1 = place ++ names ∧ names ≠ [] ∧ ∃ contents, entry.2 = .file contents := by
  obtain ⟨found, node⟩ := entry
  cases node with
  | directory =>
      simp [listed?]
  | file contents =>
      simp [listed?, below?_eq_some_iff]

theorem filesBelow_eq (tree : FileTree) (place : Place) :
    tree.filesBelow place = tree.entries.filterMap (listed? place) :=
  rfl

theorem mem_filesBelow_iff {tree : FileTree} {place names : Place} :
    names ∈ tree.filesBelow place ↔
      names ≠ [] ∧ ∃ contents, tree.contents? (place ++ names) = some contents := by
  rw [filesBelow_eq, List.mem_filterMap]
  constructor
  · rintro ⟨entry, member, isListed⟩
    obtain ⟨isPlace, nonempty, contents, isFile⟩ := listed?_eq_some_iff.1 isListed
    have below : place ++ names ≠ [] := List.append_ne_nil_of_right_ne_nil _ nonempty
    have there : (place ++ names, Node.file contents) ∈ tree.entries := by
      rw [← isPlace, ← isFile]
      exact member
    refine ⟨nonempty, contents, contents?_eq_some_iff.2 ?_⟩
    rw [node?_of_ne_nil tree below]
    exact lookup_of_mem tree.distinct there
  · rintro ⟨nonempty, contents, holds⟩
    have below : place ++ names ≠ [] := List.append_ne_nil_of_right_ne_nil _ nonempty
    have found := contents?_eq_some_iff.1 holds
    rw [node?_of_ne_nil tree below] at found
    exact ⟨_, mem_of_lookup found, listed?_eq_some_iff.2 ⟨rfl, nonempty, contents, rfl⟩⟩

theorem nodup_filesBelow (tree : FileTree) (place : Place) : (tree.filesBelow place).Nodup := by
  have distinct : tree.entries.Pairwise fun first second => first.1 ≠ second.1 :=
    List.pairwise_map.1 tree.distinct
  rw [filesBelow_eq, List.Nodup, List.pairwise_filterMap]
  apply distinct.imp
  intro first second different names isFirst others isSecond same
  have firstPlace := (listed?_eq_some_iff.1 isFirst).1
  have secondPlace := (listed?_eq_some_iff.1 isSecond).1
  apply different
  rw [firstPlace, secondPlace, same]

/-- Sorted by their names, each file below a place comes once. -/
theorem ascending_filesBelow (tree : FileTree) (place : Place) :
    ((tree.filesBelow place).mergeSort (· ≤ ·)).Pairwise (· < ·) :=
  ((List.pairwise_mergeSort' (· ≤ ·) _).and ((List.mergeSort_perm _ _).nodup_iff.2
    (nodup_filesBelow tree place))).imp fun both => lt_of_le_of_ne both.1 both.2

theorem named_of_mem_filesBelow {tree : FileTree} {place names : Place}
    (member : names ∈ tree.filesBelow place) :
    names ≠ [] ∧ ∀ name ∈ names, Path.IsFileName name := by
  rw [filesBelow_eq, List.mem_filterMap] at member
  obtain ⟨entry, there, isListed⟩ := member
  obtain ⟨isPlace, nonempty, -⟩ := listed?_eq_some_iff.1 isListed
  refine ⟨nonempty, fun name isName => ?_⟩
  apply tree.named entry there
  rw [isPlace]
  exact List.mem_append_right _ isName

/-- A usable path leads where its parts lead from the root. -/
theorem locate?_eq_some_iff {tree : FileTree} {path : Path} {place : Place} :
    tree.locate? path = some place ↔
      isUsablePath path = true ∧ tree.walk [] path.parts = .ok place := by
  rw [locate?]
  by_cases usable : isUsablePath path = true
  · rw [if_pos usable]
    cases tree.walk [] path.parts with
    | error fault =>
        simp [usable, Except.toOption]
    | ok found =>
        simp [usable, Except.toOption]
  · simp [usable]

theorem place_of_locate? {tree : FileTree} {path : Path} {place : Place}
    (leads : tree.locate? path = some place) : place = path.place :=
  placeFrom_of_walk (locate?_eq_some_iff.1 leads).2

theorem isDirectory_iff {tree : FileTree} {path : Path} :
    tree.isDirectory path = true ↔
      tree.locate? path = some path.place ∧ tree.hasDirectory path.place = true := by
  rw [isDirectory, find?, beq_iff_eq]
  cases leads : tree.locate? path with
  | none =>
      constructor
      · intro directory
        cases directory
      · rintro ⟨same, -⟩
        cases same
  | some place =>
      have same := place_of_locate? leads
      rw [Option.bind_some, same, hasDirectory, beq_iff_eq]
      exact ⟨fun directory => ⟨rfl, directory⟩, fun both => both.2⟩

theorem text_ne_empty_of_isDirectory {tree : FileTree} {directory : Path}
    (there : tree.isDirectory directory = true) : directory.text ≠ "" := by
  intro empty
  have usable := (locate?_eq_some_iff.1 (isDirectory_iff.1 there).1).1
  rw [isUsablePath, empty] at usable
  cases usable

/-- Whether a directory is there and written as listings need it. -/
def IsListed (tree : FileTree) (directory : Path) : Prop :=
  directory.IsListable ∧ tree.isDirectory directory = true

instance (tree : FileTree) (directory : Path) : Decidable (tree.IsListed directory) :=
  inferInstanceAs (Decidable (_ ∧ _))

/-- The contents of the file that a directory offers for collection under some names. -/
def offered? (tree : FileTree) (directory : Path) (names : Place) : Option ByteArray :=
  if tree.IsListed directory then tree.contents? (directory.place ++ names) else none

/-- The names of the files that a directory offers, in the order of their names. -/
def listing (tree : FileTree) (directory : Path) : List Place :=
  if tree.IsListed directory then
    (tree.filesBelow directory.place).mergeSort (· ≤ ·)
  else
    []

theorem listing_sorted (tree : FileTree) (directory : Path) :
    (tree.listing directory).Pairwise (· ≤ ·) := by
  rw [listing]
  split
  · exact List.pairwise_mergeSort' (· ≤ ·) _
  · exact .nil

theorem filesUnder_eq (tree : FileTree) (directory : Path) :
    tree.filesUnder directory =
      if tree.isDirectory directory then
        Path.sort ((tree.filesBelow directory.place).map fun names =>
          directory.listed.join (.ofNames names))
      else
        [] := by
  rw [filesUnder]
  cases leads : tree.locate? directory with
  | none =>
      rw [isDirectory, find?, leads]
      rfl
  | some place =>
      rw [isDirectory, find?, leads, place_of_locate? leads]
      rfl

section Offers

variable {tree : FileTree} {directory : Path}

theorem ascending_listing : (tree.listing directory).Pairwise (· < ·) := by
  rw [listing]
  split
  · exact ascending_filesBelow tree _
  · exact .nil

theorem nodup_listing : (tree.listing directory).Nodup :=
  ascending_listing.imp ne_of_lt

theorem mem_listing_iff {names : Place} :
    names ∈ tree.listing directory ↔ ∃ contents, tree.offered? directory names = some contents := by
  rw [listing, offered?]
  by_cases isListed : tree.IsListed directory
  · have here : tree.contents? directory.place = none := by
      have directoryNode := beq_iff_eq.1 (isDirectory_iff.1 isListed.2).2
      rw [contents?, directoryNode]
    rw [if_pos isListed, if_pos isListed, List.mem_mergeSort, mem_filesBelow_iff]
    constructor
    · exact fun both => both.2
    · rintro ⟨contents, holds⟩
      refine ⟨?_, contents, holds⟩
      intro empty
      rw [empty, List.append_nil, here] at holds
      cases holds
  · rw [if_neg isListed, if_neg isListed]
    constructor
    · intro member
      cases member
    · rintro ⟨contents, offered⟩
      cases offered

theorem named_of_mem_listing {names : Place} (member : names ∈ tree.listing directory) :
    names ≠ [] ∧ ∀ name ∈ names, Path.IsFileName name := by
  rw [listing] at member
  split at member
  · exact named_of_mem_filesBelow (List.mem_mergeSort.1 member)
  · cases member

/-- The files below a directory that is listed, in the order of their names. -/
theorem filesUnder_of_isListed (isListed : tree.IsListed directory) :
    tree.filesUnder directory =
      (tree.listing directory).map fun names => directory.listed.join (.ofNames names) := by
  rw [filesUnder_eq, if_pos isListed.2,
    Path.sort_map_join_names _ fun _ member => named_of_mem_filesBelow member, listing,
    if_pos isListed]

theorem collectionPlan_of_isListed (isListed : tree.IsListed directory) (destination : Path) :
    tree.collectionPlan directory destination = (tree.listing directory).map fun names =>
      (directory.listed.join (.ofNames names), destination.join (.ofNames names)) := by
  rw [collectionPlan, filesUnder_of_isListed isListed, List.filterMap_map,
    ← List.filterMap_eq_map]
  apply List.filterMap_congr
  intro names member
  obtain ⟨nonempty, each⟩ := named_of_mem_listing member
  rw [Function.comp_apply, Path.rebase?_listed isListed.1 destination nonempty each]
  rfl

theorem collectionPlan_of_dot (dot : directory.parts.head? = some ".") (destination : Path) :
    tree.collectionPlan directory destination = [] := by
  rw [collectionPlan, filesUnder_eq]
  split
  · rw [List.filterMap_eq_nil_iff]
    intro file member
    rw [Path.sort, List.mem_mergeSort, List.mem_map] at member
    obtain ⟨names, isNames, same⟩ := member
    obtain ⟨nonempty, each⟩ := named_of_mem_filesBelow isNames
    rw [← same, Path.rebase?_of_dot dot destination nonempty each]
    rfl
  · rfl

/-- Files are collected in the order of their names below the directory that offers them,
each to the same names below the destination. -/
theorem collectionPlan_eq (directory destination : Path) :
    tree.collectionPlan directory destination = (tree.listing directory).map fun names =>
      (directory.listed.join (.ofNames names), destination.join (.ofNames names)) := by
  by_cases isListed : tree.IsListed directory
  · exact collectionPlan_of_isListed isListed destination
  · have nothing : tree.listing directory = [] := if_neg isListed
    rw [nothing, List.map_nil]
    cases there : tree.isDirectory directory with
    | false =>
        rw [collectionPlan, filesUnder_eq, there]
        rfl
    | true =>
        have dot : directory.parts.head? = some "." := by
          by_contra dotless
          exact isListed ⟨⟨text_ne_empty_of_isDirectory there, dotless⟩, there⟩
        exact collectionPlan_of_dot dot destination

end Offers

end AheadOfTime.FileTree
