import AheadOfTime.Proofs.FileTree.Repeats

/-!
# What is seen of a tree

What is listed, read and collected in a directory depends on what stands there and below it.
Files that are written elsewhere change none of it.
-/

namespace AheadOfTime.FileTree

/-- What is on the way of a directory that is there is a directory. -/
theorem node?_of_visits {tree : FileTree} {path : Path} (there : tree.isDirectory path = true)
    {place : Place} (visits : path.Visits place) : tree.node? place = some .directory := by
  obtain ⟨leads, directory⟩ := isDirectory_iff.1 there
  obtain ⟨parts, ⟨rest, whole⟩, same⟩ := visits
  have walked := (locate?_eq_some_iff.1 leads).2
  rw [← whole] at walked
  obtain ⟨between, first, second⟩ := walk_of_walk_append walked
  rw [same, ← placeFrom_of_walk first]
  cases rest with
  | nil =>
      rw [Except.ok.inj second]
      exact beq_iff_eq.1 directory
  | cons part rest =>
      obtain ⟨next, taken, -⟩ := walk_cons_eq_ok_iff.1 second
      exact beq_iff_eq.1 (of_step taken).1

/-- What stands apart from all files that are written below a directory stays as it is. -/
theorem agreesBelow_of_writes {root : Path} {before after : FileTree}
    (there : before.isDirectory root = true) {paths : List Path}
    (writes : Writes paths before after) (below : ∀ path ∈ paths, root.IsBelow path)
    {place : Place} (apart : ∀ path ∈ paths, ¬ place <+: path.place) :
    AgreesBelow place before after := by
  intro names
  have change := writes.nodeChange (place ++ names)
  generalize isBefore : before.node? (place ++ names) = was at change ⊢
  generalize after.node? (place ++ names) = becomes at change ⊢
  cases change with
  | kept node =>
      rfl
  | made allowed =>
      obtain ⟨path, member, visits⟩ := allowed
      rcases (below path member).visits visits with above | onWay
      · rw [node?_of_visits there above] at isBefore
        cases isBefore
      · exact absurd ((List.prefix_append _ _).trans onWay) (apart path member)
  | written allowed free contents =>
      obtain ⟨path, member, same⟩ := allowed
      refine absurd ?_ (apart path member)
      rw [← same]
      exact List.prefix_append _ _

theorem step_of_agreesBelow {place : Place} {first second : FileTree}
    (agrees : AgreesBelow place first second) {name : String} (isName : Path.IsName name) :
    first.step place name = second.step place name := by
  have here := agrees []
  rw [List.append_nil] at here
  rw [step_of_isName _ _ isName, step_of_isName _ _ isName, hasDirectory, hasDirectory, here,
    agrees [name]]

/-- Names lead to the same place where the same stands. -/
theorem walk_of_agreesBelow {place : Place} {first second : FileTree}
    (agrees : AgreesBelow place first second) {names : List String}
    (each : ∀ name ∈ names, Path.IsName name) :
    first.walk place names = second.walk place names := by
  induction names generalizing place with
  | nil =>
      rfl
  | cons name names inductionHypothesis =>
      obtain ⟨isName, others⟩ := List.forall_mem_cons.1 each
      rw [walk, walk, ← step_of_agreesBelow agrees isName]
      cases taken : first.step place name with
      | error fault =>
          rfl
      | ok next =>
          have isNext := (of_step taken).2.1
          rw [Path.stepPlace_of_isName place isName] at isNext
          rw [isNext]
          exact inductionHypothesis (agrees.below [name]) others

/-- Empty parts can be left out of a way. -/
theorem walk_filter {tree : FileTree} {start place : Place} {parts : List String}
    (walked : tree.walk start parts = .ok place) :
    tree.walk start (parts.filter (· ≠ "")) = .ok place := by
  induction parts generalizing start with
  | nil =>
      exact walked
  | cons part parts inductionHypothesis =>
      obtain ⟨next, taken, rest⟩ := walk_cons_eq_ok_iff.1 walked
      have later := inductionHypothesis rest
      by_cases empty : part = ""
      · have stays := (of_step taken).2.1
        rw [empty, Path.stepPlace, if_pos (.inl rfl)] at stays
        rw [empty, ← stays]
        exact later
      · rw [List.filter_cons_of_pos (by simpa using empty)]
        exact walk_cons_eq_ok_iff.2 ⟨next, taken, later⟩

/-- Listings write a directory so that the way leads to the same place. -/
theorem walk_listed {tree : FileTree} {directory : Path} (isListed : tree.IsListed directory) :
    tree.walk [] directory.listed.parts = .ok directory.place := by
  obtain ⟨leads, -⟩ := isDirectory_iff.1 isListed.2
  have walked := walk_filter (locate?_eq_some_iff.1 leads).2
  have stays : tree.step [] "" = .ok [] := rfl
  obtain ⟨-, -, split⟩ := Path.parts_listed isListed.1
  rcases split with same | same | ⟨same, none⟩
  · rw [same]
    exact walked
  · rw [same, walk, stays]
    exact walked
  · rw [none] at walked
    rw [same]
    exact walked

theorem walk_join_listed {tree : FileTree} {directory : Path}
    (isListed : tree.IsListed directory) {names : List String} (nonempty : names ≠ [])
    (each : ∀ name ∈ names, Path.IsFileName name) :
    tree.walk [] (directory.listed.join (.ofNames names)).parts =
      tree.walk directory.place names := by
  obtain ⟨front, isFront, joined⟩ :=
    directory.listed.parts_join (Path.isAbsolute_ofNames nonempty each)
  have walked := walk_listed isListed
  have leads : tree.walk [] front = .ok directory.place := by
    rcases isFront with same | same
    · rw [← same]
      exact walked
    · rw [same] at walked
      obtain ⟨place, walkedFront, -⟩ := walk_of_walk_append walked
      rw [walkedFront, placeFrom_of_walk walkedFront, Path.placeFrom_front (.inr same),
        Path.place_listed isListed.1]
  rw [joined, Path.parts_ofNames nonempty each, walk_append, leads]

/-- Files found below a directory are read alike where the same stands. -/
theorem read?_of_agreesBelow {first second : FileTree} {directory : Path}
    (isListed : first.IsListed directory) (isListedToo : second.IsListed directory)
    (agrees : AgreesBelow directory.place first second) {names : List String}
    (nonempty : names ≠ []) (each : ∀ name ∈ names, Path.IsFileName name) :
    first.read? (directory.listed.join (.ofNames names)) =
      second.read? (directory.listed.join (.ofNames names)) := by
  have place : (directory.listed.join (.ofNames names)).place = directory.place ++ names := by
    rw [Path.place_join_names _ nonempty each, Path.place_listed isListed.1]
  have leads : first.locate? (directory.listed.join (.ofNames names)) =
      second.locate? (directory.listed.join (.ofNames names)) := by
    rw [locate?, locate?, walk_join_listed isListed nonempty each,
      walk_join_listed isListedToo nonempty each,
      walk_of_agreesBelow agrees fun name member => (each name member).1]
  rw [read?, read?, find?, find?, ← leads]
  cases located : first.locate? (directory.listed.join (.ofNames names)) with
  | none =>
      rfl
  | some found =>
      rw [Option.bind_some, Option.bind_some, place_of_locate? located, place, agrees names]

/-- Lists that ascend are the same if they have the same members. -/
theorem eq_of_ascending {first second : List Place} (ascends : first.Pairwise (· < ·))
    (ascendsToo : second.Pairwise (· < ·)) (same : ∀ names, names ∈ first ↔ names ∈ second) :
    first = second :=
  ((List.perm_ext_iff_of_nodup (ascends.imp ne_of_lt) (ascendsToo.imp ne_of_lt)).2
    same).eq_of_pairwise (fun _ _ _ _ => le_antisymm) (ascends.imp le_of_lt)
      (ascendsToo.imp le_of_lt)

section Listed

variable {first second : FileTree} {directory : Path} (isListed : first.IsListed directory)
  (isListedToo : second.IsListed directory) (agrees : AgreesBelow directory.place first second)

include isListed isListedToo agrees

theorem offered?_of_agreesBelow (names : Place) :
    first.offered? directory names = second.offered? directory names := by
  rw [offered?, offered?, if_pos isListed, if_pos isListedToo, agrees.contents?]

theorem listing_of_agreesBelow : first.listing directory = second.listing directory := by
  refine eq_of_ascending ascending_listing ascending_listing fun names => ?_
  rw [mem_listing_iff, mem_listing_iff, offered?_of_agreesBelow isListed isListedToo agrees]

theorem sourcesUnder_of_agreesBelow :
    first.sourcesUnder directory = second.sourcesUnder directory := by
  rw [sourcesUnder, sourcesUnder, filesUnder_of_isListed isListed,
    filesUnder_of_isListed isListedToo,
    listing_of_agreesBelow isListed isListedToo agrees]

theorem collectionPlan_of_agreesBelow (destination : Path) :
    first.collectionPlan directory destination =
      second.collectionPlan directory destination := by
  rw [collectionPlan_eq, collectionPlan_eq, listing_of_agreesBelow isListed isListedToo agrees]

/-- The sources found below a directory are read alike where the same stands. -/
theorem map_read?_sourcesUnder :
    (first.sourcesUnder directory).map first.read? =
      (first.sourcesUnder directory).map second.read? := by
  refine List.map_congr_left fun path found => ?_
  obtain ⟨names, member, same, -⟩ := (mem_sourcesUnder_iff isListed).1 found
  rw [same]
  obtain ⟨nonempty, each⟩ := named_of_mem_listing member
  exact read?_of_agreesBelow isListed isListedToo agrees nonempty each

end Listed

end AheadOfTime.FileTree
