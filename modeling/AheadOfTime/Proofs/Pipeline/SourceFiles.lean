import Mathlib.Data.List.Infix
import AheadOfTime.Proofs.Generation.Requests
import AheadOfTime.Proofs.Pipeline.Written

/-!
# Source files keep apart

No identifier has a dot, so the file of one type is never a directory on the way to that of
another one.  Units of different names, such as all that are generated in one context, are
written next to each other below the directory for sources, and no other file changes.
-/

namespace AheadOfTime

namespace TypeName

theorem components_sourcePath (type : TypeName) :
    type.sourcePath.components = type.sourceNames.map Component.name :=
  Path.components_ofNames type.sourceNames_ne_nil fun _ member =>
    isFileName_of_mem_sourceNames member

/-- The names that lead to a source file end in one that is no identifier, so they lead to no
other source file when more names follow. -/
theorem eq_of_sourceNames_prefix {first second : TypeName}
    (isPrefix : first.sourceNames <+: second.sourceNames) : first = second := by
  rcases List.prefix_concat_iff.1 isPrefix with same | inPackage
  · exact sourceNames_injective same
  · have member : first.simple.text ++ ".java" ∈ second.package.map Identifier.text :=
      inPackage.subset (List.mem_append_right _ List.mem_cons_self)
    obtain ⟨part, -, same⟩ := List.mem_map.1 member
    have dot : '.' ∈ part.text.toList := by
      rw [same, String.toList_append]
      exact List.mem_append_right _ (by decide)
    exact absurd dot part.dot_not_mem

/-- The path of a source file is no beginning of that of another one. -/
theorem eq_of_components_prefix {first second : TypeName}
    (isPrefix : first.sourcePath.components <+: second.sourcePath.components) :
    first = second := by
  have texts := isPrefix.map Component.text
  rw [components_sourcePath, components_sourcePath, List.map_map, List.map_map] at texts
  have same : Component.text ∘ Component.name = id := rfl
  rw [same, List.map_id, List.map_id] at texts
  exact eq_of_sourceNames_prefix texts

end TypeName

namespace FileTree

/-- Files that are written after others might have been written with them. -/
theorem writeTexts_append {tree between after : FileTree} {first second : List (Path × String)}
    {paths others : List Path} (written : tree.writeTexts first = (.ok paths, between))
    (writtenToo : between.writeTexts second = (.ok others, after)) :
    tree.writeTexts (first ++ second) = (.ok (paths ++ others), after) := by
  induction first generalizing tree paths with
  | nil =>
      cases written
      exact writtenToo
  | cons file first inductionHypothesis =>
      obtain ⟨path, text⟩ := file
      obtain ⟨changed, found, here, rest, rfl⟩ := writeTexts_cons_eq_ok_iff.1 written
      exact writeTexts_cons_eq_ok_iff.2
        ⟨changed, found ++ others, here, inductionHypothesis rest, rfl⟩

theorem writeSources_append {tree between after : FileTree} {first second : List Java.SourceUnit}
    {directory : Path} {paths others : List Path}
    (written : tree.writeSources first directory = (.ok paths, between))
    (writtenToo : between.writeSources second directory = (.ok others, after)) :
    tree.writeSources (first ++ second) directory = (.ok (paths ++ others), after) := by
  rw [writeSources, List.map_append]
  exact writeTexts_append written writtenToo

/-- Writing source files changes no file at another place. -/
theorem contents?_writeSources (tree : FileTree) (units : List Java.SourceUnit)
    (directory : Path) {place : Place}
    (elsewhere : ∀ unit ∈ units, place ≠ (directory.join unit.name.sourcePath).place) :
    (tree.writeSources units directory).2.contents? place = tree.contents? place := by
  have writes := tree.writes_writeTexts
    (units.map fun unit => (directory.join unit.name.sourcePath, unit.body))
  refine Edits.contents? writes ?_
  rintro ⟨path, member, same⟩
  rw [List.map_map] at member
  obtain ⟨unit, isUnit, rfl⟩ := List.mem_map.1 member
  exact elsewhere unit isUnit same

end FileTree

namespace Context

def Call.units (context : Context) : Call → List Java.SourceUnit
  | .name _ => []
  | .generate graph =>
      match (graph.generate context).1 with
      | .ok generated => generated.units
      | .error _ => []

def unitsOf : Context → List Call → List Java.SourceUnit
  | _, [] => []
  | context, call :: calls => call.units context ++ unitsOf (context.afterCall call) calls

theorem sublist_names_units (context : Context) (call : Call) :
    ((call.units context).map Java.SourceUnit.name).Sublist
      (IssuedNames.granted (context.names.serve call.requests).1) := by
  cases call with
  | name request =>
      exact List.nil_sublist _
  | generate graph =>
      rw [Call.units]
      cases made : graph.generate context with
      | mk result after =>
          cases result with
          | error error =>
              exact List.nil_sublist _
          | ok generated =>
              have names := graph.names_units_of_generate_eq_ok context made
              have granted : IssuedNames.granted
                  (generated.units.map fun unit => .ok unit.name) =
                    generated.units.map Java.SourceUnit.name := by
                rw [IssuedNames.granted, List.filterMap_map]
                exact congrFun List.filterMap_eq_map generated.units
              rw [Call.requests, ← names, granted]

/-- Units are named by what requests are granted, in the same order. -/
theorem sublist_names_unitsOf (context : Context) (calls : List Call) :
    ((context.unitsOf calls).map Java.SourceUnit.name).Sublist
      (IssuedNames.granted (context.names.serve (calls.flatMap Call.requests)).1) := by
  induction calls generalizing context with
  | nil =>
      exact List.nil_sublist _
  | cons call calls inductionHypothesis =>
      have later := inductionHypothesis (context.afterCall call)
      rw [names_afterCall] at later
      rw [unitsOf, List.map_append, List.flatMap_cons, IssuedNames.serve_append,
        IssuedNames.granted, List.filterMap_append]
      exact (context.sublist_names_units call).append later

theorem nodup_names_unitsOf (calls : List Call) :
    ((empty.unitsOf calls).map Java.SourceUnit.name).Nodup := by
  have records := IssuedNames.records_after (calls.flatMap Call.requests)
  have granted := records.nodup
  rw [records.names] at granted
  exact granted.sublist (empty.sublist_names_unitsOf calls)

end Context

/-- Types of different names have source files of different paths, none on the way to another,
and every path leads down from the directory for sources by names.  So units of different names
that are written one by one are all there in the end as they are, and no other file changes; and
what calls on one context return are units of different names, the initializer first. -/
theorem sources_are_written_apart_and_confined :
    (∀ first second : TypeName, first ≠ second →
      first.sourcePath ≠ second.sourcePath ∧
        ¬ first.sourcePath.components <+: second.sourcePath.components) ∧
    (∀ type : TypeName, type.sourcePath.isAbsolute = false ∧
      type.sourcePath.components = type.sourcePath.parts.map Component.name ∧
      (∀ part ∈ type.sourcePath.parts, Path.IsFileName part) ∧
      ∀ directory : Path,
        (directory.join type.sourcePath).place = directory.place ++ type.sourcePath.parts) ∧
    (∀ (tree after : FileTree) (units : List Java.SourceUnit) (directory : Path)
        (paths : List Path), (units.map Java.SourceUnit.name).Nodup →
      tree.writeSources units directory = (.ok paths, after) →
      paths = units.map (fun unit => directory.join unit.name.sourcePath) ∧
        (∀ unit ∈ units,
          after.read? (directory.join unit.name.sourcePath) = some unit.body.toUTF8) ∧
        ∀ place, (∀ unit ∈ units, place ≠ (directory.join unit.name.sourcePath).place) →
          after.contents? place = tree.contents? place) ∧
    (∀ (tree between after : FileTree) (first second : List Java.SourceUnit) (directory : Path)
        (paths others : List Path),
      tree.writeSources first directory = (.ok paths, between) →
      between.writeSources second directory = (.ok others, after) →
      tree.writeSources (first ++ second) directory = (.ok (paths ++ others), after)) ∧
    (∀ (graph : Graph) (context after : Context) (generated : Generated),
      graph.generate context = (.ok generated, after) →
      generated.units.head? = some generated.initializer.source ∧
        (generated.units.map Java.SourceUnit.name).Nodup) ∧
    ∀ calls, ((Context.empty.unitsOf calls).map Java.SourceUnit.name).Nodup := by
  refine ⟨?_, ?_, ?_, ?_, ?_, Context.nodup_names_unitsOf⟩
  · intro first second different
    have apart : ¬ first.sourcePath.components <+: second.sourcePath.components :=
      fun isPrefix => different (TypeName.eq_of_components_prefix isPrefix)
    refine ⟨fun same => apart ?_, apart⟩
    rw [same]
  · intro type
    rw [type.parts_sourcePath]
    exact ⟨type.isAbsolute_sourcePath, type.components_sourcePath,
      fun _ member => TypeName.isFileName_of_mem_sourceNames member,
      fun directory => TypeName.place_join_sourcePath directory type⟩
  · intro tree after units directory paths distinct written
    obtain ⟨same, reads⟩ := FileTree.of_writeSources distinct written
    refine ⟨same, reads, fun place elsewhere => ?_⟩
    have kept := tree.contents?_writeSources units directory elsewhere
    rw [written] at kept
    exact kept
  · intro tree between after first second directory paths others written writtenToo
    exact FileTree.writeSources_append written writtenToo
  · intro graph context after generated accepted
    exact ⟨rfl, graph.nodup_names_units context accepted⟩

def appUnit : Java.SourceUnit :=
  ⟨⟨[{ text := "com" }], { text := "App" }⟩, [.line "class App {}"]⟩

/-- A source file in the package that is named like the type of the other one. -/
def beanUnit : Java.SourceUnit :=
  ⟨⟨[{ text := "com" }, { text := "App" }], { text := "Bean" }⟩, [.line "class Bean {}"]⟩

theorem nested_units_are_written_apart :
    ([appUnit, beanUnit].map Java.SourceUnit.name).Nodup ∧
      ∃ after, FileTree.empty.writeSources [appUnit, beanUnit] ⟨"out"⟩ =
          (.ok [⟨"out/com/App.java"⟩, ⟨"out/com/App/Bean.java"⟩], after) ∧
        after.read? ⟨"out/com/App.java"⟩ = some "class App {}\n".toUTF8 ∧
        after.contents? ["out", "com", "App", "App.java"] = none := by
  obtain ⟨-, -, writes, -⟩ := sources_are_written_apart_and_confined
  have distinct : ([appUnit, beanUnit].map Java.SourceUnit.name).Nodup := by decide
  have paths : (FileTree.empty.writeSources [appUnit, beanUnit] ⟨"out"⟩).1 =
      .ok [⟨"out/com/App.java"⟩, ⟨"out/com/App/Bean.java"⟩] := by
    decide +kernel
  cases ends : FileTree.empty.writeSources [appUnit, beanUnit] ⟨"out"⟩ with
  | mk result after =>
      rw [ends] at paths
      obtain rfl : result = _ := paths
      obtain ⟨-, reads, keeps⟩ := writes _ after _ ⟨"out"⟩ _ distinct ends
      have read := reads appUnit List.mem_cons_self
      have path : (⟨"out"⟩ : Path).join appUnit.name.sourcePath = ⟨"out/com/App.java"⟩ := by
        decide +kernel
      have body : appUnit.body = "class App {}\n" := by
        decide +kernel
      rw [path, body] at read
      exact ⟨distinct, after, rfl, read, keeps _ (by decide +kernel)⟩

end AheadOfTime
