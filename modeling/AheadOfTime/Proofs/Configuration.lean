import Mathlib.Data.List.Induction
import AheadOfTime.Proofs.Path.Components
import AheadOfTime.Proofs.Settings

/-!
# Layers of configuration

Configurations laid over one another have each setting from the last layer that has it,
however they are put together.  Seeing the inputs from a directory goes layer by layer, and
a directory seen from another one is a directory again, since joining paths is associative.
-/

namespace AheadOfTime

namespace Configuration

section Overlay

variable {α β : Type}

theorem overlay_assoc (first second third : Option α) :
    overlay (overlay first second) third = overlay first (overlay second third) := by
  cases third with
  | none =>
      rfl
  | some value =>
      rfl

theorem none_overlay (upper : Option α) : overlay none upper = upper := by
  cases upper with
  | none =>
      rfl
  | some value =>
      rfl

theorem map_overlay (f : α → β) (lower upper : Option α) :
    (overlay lower upper).map f = overlay (lower.map f) (upper.map f) := by
  cases upper with
  | none =>
      rfl
  | some value =>
      rfl

end Overlay

theorem merge_assoc (first second third : Configuration) :
    (first.merge second).merge third = first.merge (second.merge third) := by
  simp only [merge, overlay_assoc]

theorem merge_empty (configuration : Configuration) : configuration.merge empty = configuration :=
  rfl

theorem empty_merge (configuration : Configuration) :
    empty.merge configuration = configuration := by
  simp only [merge, empty, none_overlay]

/-- The configuration of layers laid over one another, the last one on top. -/
def mergeAll (layers : List Configuration) : Configuration :=
  layers.foldl merge empty

theorem mergeAll_concat (layers : List Configuration) (layer : Configuration) :
    mergeAll (layers ++ [layer]) = (mergeAll layers).merge layer := by
  rw [mergeAll, List.foldl_concat]
  rfl

/-- Whether a setting is the one of the last layer that has it, or missing because none
has it. -/
def IsLastSet {α : Type} (setting : Configuration → Option α) (layers : List Configuration) :
    Option α → Prop
  | some value => ∃ before layer after, layers = before ++ layer :: after ∧
      setting layer = some value ∧ ∀ later ∈ after, setting later = none
  | none => ∀ layer ∈ layers, setting layer = none

/-- Whether each setting of a configuration is the one of the last layer that has it. -/
structure TakesLast (layers : List Configuration) (merged : Configuration) : Prop where
  application : IsLastSet Configuration.application layers merged.application
  graph : IsLastSet Configuration.graph layers merged.graph
  groupId : IsLastSet Configuration.groupId layers merged.groupId
  artifactId : IsLastSet Configuration.artifactId layers merged.artifactId
  sources : IsLastSet Configuration.sources layers merged.sources
  resources : IsLastSet Configuration.resources layers merged.resources
  classes : IsLastSet Configuration.classes layers merged.classes
  classpathDirectory :
    IsLastSet Configuration.classpathDirectory layers merged.classpathDirectory
  compiler : IsLastSet Configuration.compiler layers merged.compiler
  compilerClasspath : IsLastSet Configuration.compilerClasspath layers merged.compilerClasspath
  compilerOptions : IsLastSet Configuration.compilerOptions layers merged.compilerOptions
  overwrite : IsLastSet Configuration.overwrite layers merged.overwrite

section LastSet

variable {α : Type} {setting : Configuration → Option α}

/-- One more layer decides when it has the setting, and leaves it to the others when not. -/
theorem IsLastSet.concat {layers : List Configuration} {value : Option α}
    (isLast : IsLastSet setting layers value) (layer : Configuration) :
    IsLastSet setting (layers ++ [layer]) (overlay value (setting layer)) := by
  cases found : setting layer with
  | some upper =>
      exact ⟨layers, layer, [], rfl, found, List.forall_mem_nil _⟩
  | none =>
      cases value with
      | none =>
          exact List.forall_mem_append.2 ⟨isLast, List.forall_mem_singleton.2 found⟩
      | some value =>
          obtain ⟨before, last, after, rfl, has, others⟩ := isLast
          refine ⟨before, last, after ++ [layer], ?_, has, ?_⟩
          · rw [List.append_assoc, List.cons_append]
          · exact List.forall_mem_append.2 ⟨others, List.forall_mem_singleton.2 found⟩

/-- A setting that no layer has by default, and that merging overlays, is that of the last
layer. -/
theorem isLastSet_mergeAll (missing : setting empty = none)
    (overlays : ∀ lower upper : Configuration,
      setting (lower.merge upper) = overlay (setting lower) (setting upper))
    (layers : List Configuration) : IsLastSet setting layers (setting (mergeAll layers)) := by
  induction layers using List.reverseRecOn with
  | nil =>
      rw [mergeAll, List.foldl_nil, missing]
      exact List.forall_mem_nil _
  | append_singleton layers layer inductionHypothesis =>
      rw [mergeAll_concat, overlays]
      exact inductionHypothesis.concat layer

end LastSet

theorem takesLast_mergeAll (layers : List Configuration) : TakesLast layers (mergeAll layers) where
  application := isLastSet_mergeAll rfl (fun _ _ => rfl) layers
  graph := isLastSet_mergeAll rfl (fun _ _ => rfl) layers
  groupId := isLastSet_mergeAll rfl (fun _ _ => rfl) layers
  artifactId := isLastSet_mergeAll rfl (fun _ _ => rfl) layers
  sources := isLastSet_mergeAll rfl (fun _ _ => rfl) layers
  resources := isLastSet_mergeAll rfl (fun _ _ => rfl) layers
  classes := isLastSet_mergeAll rfl (fun _ _ => rfl) layers
  classpathDirectory := isLastSet_mergeAll rfl (fun _ _ => rfl) layers
  compiler := isLastSet_mergeAll rfl (fun _ _ => rfl) layers
  compilerClasspath := isLastSet_mergeAll rfl (fun _ _ => rfl) layers
  compilerOptions := isLastSet_mergeAll rfl (fun _ _ => rfl) layers
  overwrite := isLastSet_mergeAll rfl (fun _ _ => rfl) layers

theorem inputsRelativeTo_merge (lower upper : Configuration) (directory : Path) :
    (lower.merge upper).inputsRelativeTo directory =
      (lower.inputsRelativeTo directory).merge (upper.inputsRelativeTo directory) := by
  simp only [inputsRelativeTo, merge, map_overlay]

theorem inputsRelativeTo_inputsRelativeTo (configuration : Configuration)
    (directory outer : Path) :
    (configuration.inputsRelativeTo directory).inputsRelativeTo outer =
      configuration.inputsRelativeTo (outer.join directory) := by
  simp only [inputsRelativeTo, Option.map_map, List.map_comp_map, Path.join_comp_join]

end Configuration

namespace Settings

def withInputs (settings : Settings) (configuration : Configuration) (directory : Path) :
    Settings :=
  { settings with
    graph := configuration.graph.map directory.join
    compilerClasspath := (configuration.compilerClasspath.getD []).map directory.join }

end Settings

namespace Configuration

/-- Configurations that differ in their inputs resolve alike, but for the inputs. -/
theorem resolve_inputsRelativeTo (configuration : Configuration)
    (directory workingDirectory : Path) :
    (configuration.inputsRelativeTo directory).resolve workingDirectory =
      (configuration.resolve workingDirectory).map
        (·.withInputs configuration (workingDirectory.join directory)) := by
  have entries : (configuration.compilerClasspath.map (List.map directory.join)).getD [] =
      (configuration.compilerClasspath.getD []).map directory.join :=
    Option.getD_map (List.map directory.join) [] configuration.compilerClasspath
  change _ = (·.withInputs configuration (workingDirectory.join directory)) <$>
    configuration.resolve workingDirectory
  simp only [resolve, inputsRelativeTo, map_bind, map_pure, Settings.withInputs, Option.map_map,
    entries, List.map_map, Path.join_comp_join]

/-- Below an absolute working directory it is the same to see the inputs from a directory
and from where that directory is. -/
theorem resolve_inputsRelativeTo_join (configuration : Configuration) (directory : Path)
    {workingDirectory : Path} (absolute : workingDirectory.isAbsolute = true) :
    (configuration.inputsRelativeTo directory).resolve workingDirectory =
      (configuration.inputsRelativeTo (workingDirectory.join directory)).resolve
        workingDirectory := by
  have again : workingDirectory.join (workingDirectory.join directory) =
      workingDirectory.join directory :=
    Path.join_of_isAbsolute _ (Path.isAbsolute_join_of_isAbsolute absolute directory)
  rw [resolve_inputsRelativeTo, resolve_inputsRelativeTo, again]

/-- Layers can be put together in any order of steps, and each setting is the one of the last
layer that has it.  Seeing the inputs from a directory goes through layers and adds up, and it
changes what a configuration resolves to in the graph and the classpath of the compiler only. -/
theorem layers_take_last_and_only_inputs_move (first second third : Configuration)
    (layers : List Configuration) (directory outer : Path) :
    (first.merge second).merge third = first.merge (second.merge third) ∧
    first.merge empty = first ∧
    empty.merge first = first ∧
    TakesLast layers (mergeAll layers) ∧
    (first.merge second).inputsRelativeTo directory =
      (first.inputsRelativeTo directory).merge (second.inputsRelativeTo directory) ∧
    (first.inputsRelativeTo directory).inputsRelativeTo outer =
      first.inputsRelativeTo (outer.join directory) ∧
    (outer.isAbsolute = true → (first.inputsRelativeTo directory).resolve outer =
      (first.inputsRelativeTo (outer.join directory)).resolve outer) ∧
    (first.inputsRelativeTo directory).resolve outer =
      (first.resolve outer).map (·.withInputs first (outer.join directory)) ∧
    ∀ settings, (first.inputsRelativeTo directory).resolve outer = .ok settings →
      first.sources.map outer.join = some settings.sources ∧
        first.resources.map outer.join = some settings.resources ∧
        first.classes.map outer.join = some settings.classes ∧
        first.classpathDirectory.map outer.join = some settings.classpathDirectory := by
  refine ⟨merge_assoc first second third, merge_empty first, empty_merge first,
    takesLast_mergeAll layers, inputsRelativeTo_merge first second directory,
    inputsRelativeTo_inputsRelativeTo first directory outer,
    resolve_inputsRelativeTo_join first directory, resolve_inputsRelativeTo first directory outer,
    ?_⟩
  intro settings resolved
  have made := resolvesTo_of_resolve resolved
  exact ⟨made.sources, made.resources, made.classes, made.classpathDirectory⟩

/-- The configuration of an application in the layout of Maven, with inputs. -/
def layeredConfiguration : Configuration :=
  { maven with
    application := some ⟨[], { text := "App" }⟩
    groupId := some "g"
    artifactId := some "a"
    graph := some ⟨"graph.json"⟩
    compilerClasspath := some [⟨"lib/a.jar"⟩, ⟨"/opt/b.jar"⟩] }

theorem layered_configuration_takes_last_and_moves_inputs :
    let settings : Settings :=
      { application := ⟨[], { text := "App" }⟩
        graph := some ⟨"/work/conf/graph.json"⟩
        sources := ⟨"/work/target/spring-aot/main/sources"⟩
        resources := ⟨"/work/target/spring-aot/main/resources"⟩
        classes := ⟨"/work/target/spring-aot/main/classes"⟩
        classpathDirectory := ⟨"/work/target/classes"⟩
        groupId := "g"
        artifactId := "a"
        compiler := "javac"
        compilerClasspath := [⟨"/work/conf/lib/a.jar"⟩, ⟨"/opt/b.jar"⟩]
        compilerOptions := []
        overwrite := false }
    (⟨"/work"⟩ : Path).isAbsolute = true ∧
      (layeredConfiguration.inputsRelativeTo ⟨"conf"⟩).resolve ⟨"/work"⟩ = .ok settings ∧
      (layeredConfiguration.inputsRelativeTo ⟨"/work/conf"⟩).resolve ⟨"/work"⟩ = .ok settings ∧
      TakesLast [maven, layeredConfiguration] (mergeAll [maven, layeredConfiguration]) ∧
      layeredConfiguration.sources.map (⟨"/work"⟩ : Path).join = some settings.sources := by
  intro settings
  have absolute : (⟨"/work"⟩ : Path).isAbsolute = true := by decide
  have resolved : (layeredConfiguration.inputsRelativeTo ⟨"conf"⟩).resolve ⟨"/work"⟩ =
      .ok settings := by
    decide +kernel
  obtain ⟨-, -, -, takesLast, -, -, alike, -, outputs⟩ :=
    layers_take_last_and_only_inputs_move layeredConfiguration empty empty
      [maven, layeredConfiguration] ⟨"conf"⟩ ⟨"/work"⟩
  exact ⟨absolute, resolved, (alike absolute).symm.trans resolved, takesLast,
    (outputs settings resolved).1⟩

end Configuration

end AheadOfTime
