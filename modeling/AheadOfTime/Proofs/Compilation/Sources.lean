import AheadOfTime.Compilation
import AheadOfTime.Proofs.FileTree.Room

/-!
# Source files that are found

The source files below a directory are the files of its listing whose names end as those of
source files do, in the order of the listing.  What stands in the text of the directory does
not matter.
-/

namespace AheadOfTime

theorem Path.isSource_join_names (directory : Path) {front : List String} {last : String}
    (each : ∀ name ∈ front ++ [last], IsFileName name) :
    (directory.join (ofNames (front ++ [last]))).isSource = true ↔
      sourceSuffix <:+ last.toList := by
  have nonempty : front ++ [last] ≠ [] :=
    List.append_ne_nil_of_right_ne_nil _ (List.cons_ne_nil _ _)
  have ends : (directory.join (ofNames (front ++ [last]))).fileName? = some last := by
    rw [fileName?, components_join_names _ nonempty each, List.map_append,
      ← List.append_assoc, List.map_singleton, List.getLast?_concat]
  rw [isSource, ends]
  exact List.isSuffixOf_iff_suffix

namespace FileTree

/-- Files that have been written are there in the end. -/
theorem isFile_of_writeTexts {tree after : FileTree} {files : List (Path × String)}
    {paths : List Path} (written : tree.writeTexts files = (.ok paths, after)) :
    ∀ file ∈ files, after.isFile file.1 = true := by
  induction files generalizing tree paths with
  | nil =>
      exact List.forall_mem_nil _
  | cons file files inductionHypothesis =>
      obtain ⟨path, text⟩ := file
      obtain ⟨changed, others, first, rest, -⟩ := writeTexts_cons_eq_ok_iff.1 written
      have writes := writes_writeTexts changed files
      rw [rest] at writes
      refine List.forall_mem_cons.2 ⟨?_, inductionHypothesis rest⟩
      refine isFile_of_edits writes ?_
      rw [isFile, of_writeFile first]
      rfl

section Listed

variable {tree : FileTree} {directory : Path} (isListed : tree.IsListed directory)

include isListed

theorem mem_sourcesUnder_iff {path : Path} :
    path ∈ tree.sourcesUnder directory ↔
      ∃ names ∈ tree.listing directory,
        path = directory.listed.join (.ofNames names) ∧ path.isSource = true := by
  rw [sourcesUnder, List.mem_filter, filesUnder_of_isListed isListed, List.mem_map]
  constructor
  · rintro ⟨⟨names, member, same⟩, isSource⟩
    exact ⟨names, member, same.symm, isSource⟩
  · rintro ⟨names, member, same, isSource⟩
    exact ⟨⟨names, member, same.symm⟩, isSource⟩

/-- Source files are found in ascending order, each of them once. -/
theorem ascending_sourcesUnder :
    (tree.sourcesUnder directory).Pairwise fun first second =>
      first.precedes second = true := by
  rw [sourcesUnder, filesUnder_of_isListed isListed]
  refine List.Pairwise.filter _ (List.pairwise_map.2 (ascending_listing.imp_of_mem ?_))
  intro first second isFirst isSecond before
  obtain ⟨nonempty, each⟩ := named_of_mem_listing isFirst
  obtain ⟨nonemptyToo, eachToo⟩ := named_of_mem_listing isSecond
  rw [Path.precedes_join_names _ nonempty nonemptyToo each eachToo]
  exact decide_eq_true before

/-- What is found is a file below the directory with the name of a source file. -/
theorem of_mem_sourcesUnder {path : Path} (found : path ∈ tree.sourcesUnder directory) :
    ∃ front last contents,
      path.components = directory.components ++ (front ++ [last]).map Component.name ∧
      sourceSuffix <:+ last.toList ∧ tree.node? path.place = some (.file contents) := by
  obtain ⟨names, member, same, isSource⟩ := (mem_sourcesUnder_iff isListed).1 found
  obtain ⟨nonempty, each⟩ := named_of_mem_listing member
  obtain ⟨contents, offered⟩ := mem_listing_iff.1 member
  rw [offered?, if_pos isListed] at offered
  have components : path.components = directory.components ++ names.map Component.name := by
    rw [same, Path.components_join_names _ nonempty each,
      Path.components_listed isListed.1]
  have place : path.place = directory.place ++ names := by
    rw [same, Path.place_join_names _ nonempty each, Path.place_listed isListed.1]
  obtain ⟨front, last, parts⟩ := (List.eq_nil_or_concat names).resolve_left nonempty
  rw [List.concat_eq_append] at parts
  rw [same, parts] at isSource
  rw [parts] at each components
  refine ⟨front, last, contents, components, (Path.isSource_join_names _ each).1 isSource, ?_⟩
  rw [place]
  exact contents?_eq_some_iff.1 offered

/-- The source file of a type that is there is found. -/
theorem exists_mem_sourcesUnder {front : List String} {last : String}
    (each : ∀ name ∈ front ++ [last], Path.IsFileName name)
    (suffix : sourceSuffix <:+ last.toList)
    (there : tree.isFile (directory.join (.ofNames (front ++ [last]))) = true) :
    ∃ path ∈ tree.sourcesUnder directory,
      path.components = (directory.join (.ofNames (front ++ [last]))).components := by
  have nonempty : front ++ [last] ≠ [] :=
    List.append_ne_nil_of_right_ne_nil _ (List.cons_ne_nil _ _)
  rw [isFile, Option.isSome_iff_exists] at there
  obtain ⟨contents, reads⟩ := there
  have offered := offered?_of_read? isListed.1 nonempty each reads
  have member : front ++ [last] ∈ tree.listing directory := mem_listing_iff.2 ⟨contents, offered⟩
  refine ⟨directory.listed.join (.ofNames (front ++ [last])), ?_, ?_⟩
  · exact (mem_sourcesUnder_iff isListed).2
      ⟨_, member, rfl, (Path.isSource_join_names _ each).2 suffix⟩
  · rw [Path.components_join_names _ nonempty each,
      Path.components_join_names _ nonempty each, Path.components_listed isListed.1]

end Listed

end FileTree

end AheadOfTime
