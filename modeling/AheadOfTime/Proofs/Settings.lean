import AheadOfTime.Proofs.Path
import AheadOfTime.Settings
import Mathlib.Logic.Basic
import Mathlib.Tactic.ByContra

/-!
# What a configuration resolves to

A configuration resolves step by step, and each step that goes through settles one setting.  A
configuration that is complete resolves, and every other one fails for the first setting, in the
order of the steps, that is missing or of no use.
-/

namespace AheadOfTime

/-- An attempt that goes on goes through step by step. -/
theorem exists_of_bind_eq_ok {ε α β : Type} {first : Except ε α} {next : α → Except ε β}
    {last : β} (ends : first.bind next = .ok last) :
    ∃ value, first = .ok value ∧ next value = .ok last := by
  cases first with
  | error failure =>
      cases ends
  | ok value =>
      exact ⟨value, rfl, ends⟩

theorem mapError_eq_ok_iff {ε δ α : Type} {attempt : Except ε α} {change : ε → δ} {value : α} :
    attempt.mapError change = .ok value ↔ attempt = .ok value := by
  cases attempt with
  | error failure =>
      simp [Except.mapError]
  | ok other =>
      simp [Except.mapError]

namespace Configuration

def IsVisible (text : String) : Prop :=
  ∃ c ∈ text.toList, Unicode.isBlank c = false

instance (text : String) : Decidable (IsVisible text) :=
  List.decidableBEx (fun c => Unicode.isBlank c = false) text.toList

/-- Whether a text can be a coordinate of a project: it shows something, has no slash of either
kind, and is neither of the names that lead up or nowhere. -/
structure IsCoordinate (text : String) : Prop where
  visible : IsVisible text
  slashless : '/' ∉ text.toList
  backslashless : '\\' ∉ text.toList
  notHere : text ≠ "."
  notUp : text ≠ ".."

theorem isBlank_eq_true_iff {text : String} :
    Text.isBlank text.toList = true ↔ ¬ IsVisible text := by
  simp [Text.isBlank, IsVisible]

theorem IsVisible.ne_empty {text : String} (visible : IsVisible text) : text ≠ "" := by
  rintro rfl
  obtain ⟨c, member, -⟩ := visible
  cases member

theorem IsCoordinate.isFileName {text : String} (isCoordinate : IsCoordinate text) :
    Path.IsFileName text :=
  ⟨⟨isCoordinate.visible.ne_empty, isCoordinate.notHere, isCoordinate.notUp⟩,
    isCoordinate.slashless⟩

theorem isSegment_iff_isCoordinate {text : String} (visible : IsVisible text) :
    Path.isSegment text = true ↔ IsCoordinate text := by
  simp only [Path.isSegment, Bool.and_eq_true, bne_iff_ne, Bool.not_eq_true',
    List.contains_eq_mem, decide_eq_false_iff_not]
  constructor
  · rintro ⟨⟨⟨⟨-, notHere⟩, notUp⟩, slashless⟩, backslashless⟩
    exact ⟨visible, slashless, backslashless, notHere, notUp⟩
  · intro isCoordinate
    exact ⟨⟨⟨⟨visible.ne_empty, isCoordinate.notHere⟩, isCoordinate.notUp⟩,
      isCoordinate.slashless⟩, isCoordinate.backslashless⟩

/-- What is wrong with a coordinate, and the error that tells it. -/
inductive CoordinateFault (setting : Setting) : Option String → SettingsError → Prop where
  | missing : CoordinateFault setting none (.missing setting)
  | blank {text : String} (blank : ¬ IsVisible text) :
      CoordinateFault setting (some text) (.invalid setting text .blank)
  | noSegment {text : String} (visible : IsVisible text)
      (unfit : '/' ∈ text.toList ∨ '\\' ∈ text.toList ∨ text = "." ∨ text = "..") :
      CoordinateFault setting (some text) (.invalid setting text .noSegment)

theorem not_isCoordinate_iff {text : String} (visible : IsVisible text) :
    ¬ IsCoordinate text ↔
      '/' ∈ text.toList ∨ '\\' ∈ text.toList ∨ text = "." ∨ text = ".." := by
  constructor
  · intro unfit
    by_contra fits
    simp only [not_or] at fits
    exact unfit ⟨visible, fits.1, fits.2.1, fits.2.2.1, fits.2.2.2⟩
  · rintro (slash | backslash | here | up) isCoordinate
    · exact isCoordinate.slashless slash
    · exact isCoordinate.backslashless backslash
    · exact isCoordinate.notHere here
    · exact isCoordinate.notUp up

section Steps

variable {setting : Setting} {error : SettingsError}

theorem eq_some_of_required {α : Type} {value : Option α} {found : α}
    (accepted : required setting value = .ok found) : value = some found := by
  cases value with
  | none =>
      cases accepted
  | some value =>
      exact congrArg some (Except.ok.inj accepted)

theorem required_eq_error_iff {α : Type} {value : Option α} :
    required setting value = .error error ↔ value = none ∧ error = .missing setting := by
  cases value with
  | none =>
      simp [required, eq_comm]
  | some value =>
      simp [required]

theorem coordinate_some (text : String) :
    coordinate setting (some text) =
      if Text.isBlank text.toList then .error (.invalid setting text .blank)
      else if !Path.isSegment text then .error (.invalid setting text .noSegment)
      else .ok text :=
  rfl

theorem coordinate_eq_ok_iff {value : Option String} {text : String} :
    coordinate setting value = .ok text ↔ value = some text ∧ IsCoordinate text := by
  cases value with
  | none =>
      exact iff_of_false nofun fun both => nomatch both.1
  | some given =>
      rw [coordinate_some]
      by_cases visible : IsVisible given
      · have shown : ¬ Text.isBlank given.toList = true := fun blank =>
          isBlank_eq_true_iff.1 blank visible
        rw [if_neg shown]
        by_cases isCoordinate : IsCoordinate given
        · have segment := (isSegment_iff_isCoordinate visible).2 isCoordinate
          rw [segment, if_neg (by decide)]
          constructor
          · intro same
            obtain rfl := Except.ok.inj same
            exact ⟨rfl, isCoordinate⟩
          · rintro ⟨same, -⟩
            exact congrArg Except.ok (Option.some.inj same)
        · have segment := (isSegment_iff_isCoordinate visible).not.2 isCoordinate
          rw [Bool.eq_false_iff.2 segment, if_pos Bool.not_false]
          refine iff_of_false nofun ?_
          rintro ⟨same, accepted⟩
          rw [← Option.some.inj same] at accepted
          exact isCoordinate accepted
      · rw [if_pos (isBlank_eq_true_iff.2 visible)]
        refine iff_of_false nofun ?_
        rintro ⟨same, accepted⟩
        rw [← Option.some.inj same] at accepted
        exact visible accepted.visible

theorem coordinate_eq_error_iff {value : Option String} :
    coordinate setting value = .error error ↔ CoordinateFault setting value error := by
  constructor
  · intro fails
    cases value with
    | none =>
        cases fails
        exact .missing
    | some text =>
        rw [coordinate_some] at fails
        split at fails
        · rename_i blank
          cases fails
          exact .blank (isBlank_eq_true_iff.1 blank)
        · rename_i shown
          have visible : IsVisible text := by
            by_contra blank
            exact shown (isBlank_eq_true_iff.2 blank)
          split at fails
          · rename_i unfit
            cases fails
            refine .noSegment visible ((not_isCoordinate_iff visible).1 fun isCoordinate => ?_)
            rw [(isSegment_iff_isCoordinate visible).2 isCoordinate] at unfit
            cases unfit
          · cases fails
  · intro fault
    cases fault with
    | missing =>
        rfl
    | blank blank =>
        rw [coordinate_some, if_pos (isBlank_eq_true_iff.2 blank)]
    | noSegment visible unfit =>
        have shown := isBlank_eq_true_iff.not.2 (not_not.2 visible)
        have segment := (isSegment_iff_isCoordinate visible).not.2
          ((not_isCoordinate_iff visible).2 unfit)
        rw [coordinate_some, if_neg shown, Bool.eq_false_iff.2 segment]
        rfl

theorem compilerProgram_eq_ok_iff {value : Option String} {program : String} :
    compilerProgram value = .ok program ↔
      program = value.getD defaultCompiler ∧ IsVisible program := by
  rw [compilerProgram]
  by_cases visible : IsVisible (value.getD defaultCompiler)
  · rw [if_neg (isBlank_eq_true_iff.not.2 (not_not.2 visible))]
    constructor
    · intro same
      obtain rfl := Except.ok.inj same
      exact ⟨rfl, visible⟩
    · rintro ⟨rfl, -⟩
      rfl
  · rw [if_pos (isBlank_eq_true_iff.2 visible)]
    refine iff_of_false nofun ?_
    rintro ⟨rfl, shown⟩
    exact visible shown

/-- The compiler that is taken when none is named has a name. -/
theorem isVisible_defaultCompiler : IsVisible defaultCompiler := by
  decide +kernel

theorem compilerProgram_eq_error_iff {value : Option String} :
    compilerProgram value = .error error ↔
      ∃ program, value = some program ∧ ¬ IsVisible program ∧
        error = .invalid .compiler program .blankProgram := by
  rw [compilerProgram]
  by_cases visible : IsVisible (value.getD defaultCompiler)
  · rw [if_neg (isBlank_eq_true_iff.not.2 (not_not.2 visible))]
    refine iff_of_false nofun ?_
    rintro ⟨program, rfl, blank, -⟩
    exact blank visible
  · rw [if_pos (isBlank_eq_true_iff.2 visible)]
    cases value with
    | none =>
        exact absurd isVisible_defaultCompiler visible
    | some program =>
        constructor
        · intro fails
          exact ⟨program, rfl, visible, (Except.error.inj fails).symm⟩
        · rintro ⟨_, same, -, rfl⟩
          rw [← Option.some.inj same]
          rfl

end Steps

/-! ## Settings -/

/-- Whether a configuration has all that a run needs. -/
structure IsComplete (configuration : Configuration) : Prop where
  application : configuration.application ≠ none
  groupId : ∃ text, configuration.groupId = some text ∧ IsCoordinate text
  artifactId : ∃ text, configuration.artifactId = some text ∧ IsCoordinate text
  sources : configuration.sources ≠ none
  resources : configuration.resources ≠ none
  classes : configuration.classes ≠ none
  classpathDirectory : configuration.classpathDirectory ≠ none
  compiler : ∀ program, configuration.compiler = some program → IsVisible program

/-- Whether settings are those that a configuration stands for in a working directory. -/
structure ResolvesTo (configuration : Configuration) (workingDirectory : Path)
    (settings : Settings) : Prop where
  application : configuration.application = some settings.application
  graph : settings.graph = configuration.graph.map workingDirectory.join
  groupId : configuration.groupId = some settings.groupId
  artifactId : configuration.artifactId = some settings.artifactId
  sources : configuration.sources.map workingDirectory.join = some settings.sources
  resources : configuration.resources.map workingDirectory.join = some settings.resources
  classes : configuration.classes.map workingDirectory.join = some settings.classes
  classpathDirectory :
    configuration.classpathDirectory.map workingDirectory.join = some settings.classpathDirectory
  compiler : settings.compiler = configuration.compiler.getD defaultCompiler
  compilerClasspath : settings.compilerClasspath =
    (configuration.compilerClasspath.getD []).map workingDirectory.join
  compilerOptions : settings.compilerOptions = configuration.compilerOptions.getD []
  overwrite : settings.overwrite = configuration.overwrite.getD false

section Resolution

variable {configuration : Configuration} {workingDirectory : Path} {settings : Settings}

/-- A configuration that resolves has every setting that it needs, and nothing else decides. -/
theorem of_resolve (resolved : configuration.resolve workingDirectory = .ok settings) :
    configuration.IsComplete ∧ configuration.ResolvesTo workingDirectory settings := by
  obtain ⟨application, isApplication, resolved⟩ := exists_of_bind_eq_ok resolved
  obtain ⟨groupId, isGroup, resolved⟩ := exists_of_bind_eq_ok resolved
  obtain ⟨artifactId, isArtifact, resolved⟩ := exists_of_bind_eq_ok resolved
  obtain ⟨sources, isSources, resolved⟩ := exists_of_bind_eq_ok resolved
  obtain ⟨resources, isResources, resolved⟩ := exists_of_bind_eq_ok resolved
  obtain ⟨classes, isClasses, resolved⟩ := exists_of_bind_eq_ok resolved
  obtain ⟨classpathDirectory, isClasspath, resolved⟩ := exists_of_bind_eq_ok resolved
  obtain ⟨compiler, isCompiler, resolved⟩ := exists_of_bind_eq_ok resolved
  obtain rfl := Except.ok.inj resolved
  have group := coordinate_eq_ok_iff.1 isGroup
  have artifact := coordinate_eq_ok_iff.1 isArtifact
  have program := compilerProgram_eq_ok_iff.1 isCompiler
  have given {α : Type} {setting : Setting} {value : Option α} {found : α}
      (accepted : required setting value = .ok found) : value ≠ none := by
    rw [eq_some_of_required accepted]
    exact Option.some_ne_none found
  constructor
  · refine ⟨given isApplication, ⟨groupId, group⟩, ⟨artifactId, artifact⟩, given isSources,
      given isResources, given isClasses, given isClasspath, fun named isNamed => ?_⟩
    rw [isNamed, Option.getD_some] at program
    exact program.1 ▸ program.2
  · constructor
    case application =>
      exact eq_some_of_required isApplication
    case groupId =>
      exact group.1
    case artifactId =>
      exact artifact.1
    case sources =>
      rw [eq_some_of_required isSources, Option.map_some]
    case resources =>
      rw [eq_some_of_required isResources, Option.map_some]
    case classes =>
      rw [eq_some_of_required isClasses, Option.map_some]
    case classpathDirectory =>
      rw [eq_some_of_required isClasspath, Option.map_some]
    case compiler =>
      exact program.1
    all_goals rfl

theorem resolvesTo_of_resolve
    (resolved : configuration.resolve workingDirectory = .ok settings) :
    configuration.ResolvesTo workingDirectory settings :=
  (of_resolve resolved).2

theorem ResolvesTo.unique {other : Settings}
    (first : configuration.ResolvesTo workingDirectory settings)
    (second : configuration.ResolvesTo workingDirectory other) : settings = other := by
  cases settings
  cases other
  rw [Settings.mk.injEq]
  exact ⟨Option.some.inj (first.application.symm.trans second.application),
    first.graph.trans second.graph.symm,
    Option.some.inj (first.sources.symm.trans second.sources),
    Option.some.inj (first.resources.symm.trans second.resources),
    Option.some.inj (first.classes.symm.trans second.classes),
    Option.some.inj (first.classpathDirectory.symm.trans second.classpathDirectory),
    Option.some.inj (first.groupId.symm.trans second.groupId),
    Option.some.inj (first.artifactId.symm.trans second.artifactId),
    first.compiler.trans second.compiler.symm,
    first.compilerClasspath.trans second.compilerClasspath.symm,
    first.compilerOptions.trans second.compilerOptions.symm,
    first.overwrite.trans second.overwrite.symm⟩

/-- Whether a configuration is complete shows in the settings that it stands for. -/
theorem ResolvesTo.isComplete_iff (made : configuration.ResolvesTo workingDirectory settings) :
    configuration.IsComplete ↔
      IsCoordinate settings.groupId ∧ IsCoordinate settings.artifactId ∧
        IsVisible settings.compiler := by
  have given {path : Option Path} {found : Path}
      (seen : path.map workingDirectory.join = some found) : path ≠ none := by
    rintro rfl
    cases seen
  constructor
  · intro complete
    obtain ⟨groupId, isGroup, group⟩ := complete.groupId
    obtain ⟨artifactId, isArtifact, artifact⟩ := complete.artifactId
    rw [made.groupId] at isGroup
    rw [made.artifactId] at isArtifact
    rw [Option.some.inj isGroup, Option.some.inj isArtifact, made.compiler]
    refine ⟨group, artifact, ?_⟩
    cases named : configuration.compiler with
    | none =>
        exact isVisible_defaultCompiler
    | some program =>
        exact complete.compiler program named
  · rintro ⟨group, artifact, program⟩
    refine ⟨?_, ⟨_, made.groupId, group⟩, ⟨_, made.artifactId, artifact⟩, given made.sources,
      given made.resources, given made.classes, given made.classpathDirectory, ?_⟩
    · rw [made.application]
      exact Option.some_ne_none settings.application
    · intro named isNamed
      rw [made.compiler, isNamed] at program
      exact program

theorem isCoordinate_of_resolve
    (resolved : configuration.resolve workingDirectory = .ok settings) :
    IsCoordinate settings.groupId ∧ IsCoordinate settings.artifactId := by
  obtain ⟨complete, made⟩ := of_resolve resolved
  obtain ⟨group, artifact, -⟩ := made.isComplete_iff.1 complete
  exact ⟨group, artifact⟩

end Resolution

/-- The settings in the order in which they are looked at. -/
def checked : List Setting :=
  [.application, .groupId, .artifactId, .sources, .resources, .classes, .classpathDirectory,
    .compiler]

/-- What is wrong with a setting of a configuration, and the error that tells it. -/
def HasFault (configuration : Configuration) : Setting → SettingsError → Prop
  | .application, error => configuration.application = none ∧ error = .missing .application
  | .groupId, error => CoordinateFault .groupId configuration.groupId error
  | .artifactId, error => CoordinateFault .artifactId configuration.artifactId error
  | .sources, error => configuration.sources = none ∧ error = .missing .sources
  | .resources, error => configuration.resources = none ∧ error = .missing .resources
  | .classes, error => configuration.classes = none ∧ error = .missing .classes
  | .classpathDirectory, error =>
      configuration.classpathDirectory = none ∧ error = .missing .classpathDirectory
  | .compiler, error => ∃ program, configuration.compiler = some program ∧
      ¬ IsVisible program ∧ error = .invalid .compiler program .blankProgram

def FirstFault (configuration : Configuration) (settings : List Setting)
    (error : SettingsError) : Prop :=
  ∃ before setting after, settings = before ++ setting :: after ∧
    (∀ earlier ∈ before, ∀ other, ¬ configuration.HasFault earlier other) ∧
    configuration.HasFault setting error

section Faults

variable {configuration : Configuration} {setting : Setting} {settings : List Setting}
  {error : SettingsError}

theorem not_firstFault_nil : ¬ configuration.FirstFault [] error := by
  rintro ⟨before, setting, after, whole, -⟩
  exact List.append_ne_nil_of_right_ne_nil _ (List.cons_ne_nil _ _) whole.symm

theorem firstFault_cons_iff :
    configuration.FirstFault (setting :: settings) error ↔
      configuration.HasFault setting error ∨
        (∀ other, ¬ configuration.HasFault setting other) ∧
          configuration.FirstFault settings error := by
  constructor
  · rintro ⟨before, found, after, whole, none, fault⟩
    cases before with
    | nil =>
        obtain ⟨rfl, -⟩ := List.cons.inj whole
        exact .inl fault
    | cons first before =>
        obtain ⟨rfl, rest⟩ := List.cons.inj whole
        obtain ⟨here, others⟩ := List.forall_mem_cons.1 none
        exact .inr ⟨here, before, found, after, rest, others, fault⟩
  · rintro (fault | ⟨here, before, found, after, rfl, none, fault⟩)
    · exact ⟨[], setting, settings, rfl, List.forall_mem_nil _, fault⟩
    · exact ⟨setting :: before, found, after, rfl, List.forall_mem_cons.2 ⟨here, none⟩, fault⟩

/-- If the first step of an attempt settles a setting, the attempt fails for that setting or
for a later one. -/
theorem bind_eq_error_iff {α β : Type} {first : Except SettingsError α}
    {next : α → Except SettingsError β}
    (tells : ∀ {other}, first = .error other ↔ configuration.HasFault setting other)
    (later : ∀ value, next value = .error error ↔ configuration.FirstFault settings error) :
    first.bind next = .error error ↔ configuration.FirstFault (setting :: settings) error := by
  rw [firstFault_cons_iff]
  cases first with
  | error failure =>
      have fault : configuration.HasFault setting failure := tells.1 rfl
      change Except.error failure = .error error ↔ _
      rw [or_iff_left fun both => both.1 failure fault, ← tells, Except.error.injEq,
        Except.error.injEq]
  | ok value =>
      have sound : ∀ other, ¬ configuration.HasFault setting other :=
        fun other fault => nomatch tells.2 fault
      change next value = .error error ↔ _
      rw [later value]
      exact ⟨fun found => .inr ⟨sound, found⟩,
        fun either => (either.resolve_left (sound error)).2⟩

/-- The error tells the first setting that is missing or of no use. -/
theorem resolve_eq_error_iff {workingDirectory : Path} :
    configuration.resolve workingDirectory = .error error ↔
      configuration.FirstFault checked error := by
  refine bind_eq_error_iff required_eq_error_iff fun application => ?_
  refine bind_eq_error_iff coordinate_eq_error_iff fun groupId => ?_
  refine bind_eq_error_iff coordinate_eq_error_iff fun artifactId => ?_
  refine bind_eq_error_iff required_eq_error_iff fun sources => ?_
  refine bind_eq_error_iff required_eq_error_iff fun resources => ?_
  refine bind_eq_error_iff required_eq_error_iff fun classes => ?_
  refine bind_eq_error_iff required_eq_error_iff fun classpathDirectory => ?_
  refine bind_eq_error_iff compilerProgram_eq_error_iff fun compiler => ?_
  exact iff_of_false nofun not_firstFault_nil

theorem IsComplete.not_hasFault (complete : configuration.IsComplete) :
    ¬ configuration.HasFault setting error := by
  have sound {key : Setting} {value : Option String}
      (given : ∃ text, value = some text ∧ IsCoordinate text) :
      ¬ CoordinateFault key value error := by
    obtain ⟨text, rfl, isCoordinate⟩ := given
    intro fault
    have accepted : coordinate key (some text) = .ok text :=
      coordinate_eq_ok_iff.2 ⟨rfl, isCoordinate⟩
    rw [coordinate_eq_error_iff.2 fault] at accepted
    cases accepted
  cases setting with
  | application =>
      exact fun fault => complete.application fault.1
  | groupId =>
      exact sound complete.groupId
  | artifactId =>
      exact sound complete.artifactId
  | sources =>
      exact fun fault => complete.sources fault.1
  | resources =>
      exact fun fault => complete.resources fault.1
  | classes =>
      exact fun fault => complete.classes fault.1
  | classpathDirectory =>
      exact fun fault => complete.classpathDirectory fault.1
  | compiler =>
      rintro ⟨program, named, blank, -⟩
      exact blank (complete.compiler program named)

end Faults

theorem exists_resolve_iff {configuration : Configuration} {workingDirectory : Path} :
    (∃ settings, configuration.resolve workingDirectory = .ok settings) ↔
      configuration.IsComplete := by
  constructor
  · rintro ⟨settings, resolved⟩
    exact (of_resolve resolved).1
  · intro complete
    cases resolved : configuration.resolve workingDirectory with
    | ok settings =>
        exact ⟨settings, rfl⟩
    | error error =>
        obtain ⟨-, setting, -, -, -, fault⟩ := resolve_eq_error_iff.1 resolved
        exact absurd fault complete.not_hasFault

end Configuration

end AheadOfTime
