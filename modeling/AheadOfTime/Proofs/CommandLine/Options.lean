import AheadOfTime.CommandLine.Arguments
import AheadOfTime.Proofs.Settings

/-!
# Options that can be given

Most settings can be given as options, each in a field of its own.  The classpath and the options
of the compiler cannot, and startup arguments can only be asked to be replaced.
-/

namespace AheadOfTime.CommandLine

theorem readLetters_ne_command {versionAllowed : Bool} {letters : List Char} {command : Command}
    {options : Options} :
    readLetters versionAllowed letters ≠ .ok (some (.command command options)) := by
  fun_induction readLetters versionAllowed letters with
  | case2 rest again =>
      exact again
  | _ =>
      exact nofun

/-- Whether options are such as a command line can give. -/
structure Options.CanBeGiven (options : Options) : Prop where
  compilerClasspath : options.overrides.compilerClasspath = none
  compilerOptions : options.overrides.compilerOptions = none
  overwrite : options.overrides.overwrite ≠ some false

namespace Options.CanBeGiven

variable {before after : Options} (canBeGiven : before.CanBeGiven)

include canBeGiven

/-- No option with a value changes what cannot be given so. -/
theorem put {option : ValueOption} (isOption : option ∈ valueOptions) {value : String}
    (puts : option.put value before = some after) : after.CanBeGiven := by
  have each : ∀ option ∈ valueOptions, ∀ after, option.put value before = some after →
      after.CanBeGiven := by
    simp only [valueOptions, List.forall_mem_cons, Option.map_eq_some_iff, Option.some.injEq]
    refine ⟨?_, ?_, ?_, ?_, ?_, ?_, ?_, ?_, ?_, ?_, ?_, List.forall_mem_nil _⟩
    all_goals
      rintro after ⟨found, -, rfl⟩
      exact ⟨canBeGiven.compilerClasspath, canBeGiven.compilerOptions, canBeGiven.overwrite⟩
  exact each option isOption after puts

theorem giveValue {option : ValueOption} (isOption : option ∈ valueOptions) {value : String}
    (gives : CommandLine.giveValue option value before = .ok after) : after.CanBeGiven := by
  rw [CommandLine.giveValue] at gives
  split at gives
  · cases gives
  · split at gives
    · rename_i changed puts
      cases gives
      exact canBeGiven.put isOption puts
    · cases gives

theorem giveOverwrite (gives : CommandLine.giveOverwrite before = .ok after) :
    after.CanBeGiven := by
  rw [CommandLine.giveOverwrite] at gives
  split at gives
  · cases gives
  · cases gives
    exact ⟨canBeGiven.compilerClasspath, canBeGiven.compilerOptions, nofun⟩

theorem readOptions {command other : Command} {arguments : List String}
    (reads : CommandLine.readOptions command before arguments = .ok (.command other after)) :
    after.CanBeGiven := by
  fun_induction CommandLine.readOptions command before arguments with
  | case1 =>
      cases reads
      exact canBeGiven
  | case3 =>
      cases reads
      exact canBeGiven
  | case5 options argument rest letters isShort again =>
      obtain ⟨asked, asks, reads⟩ := exists_of_bind_eq_ok reads
      cases asked with
      | none =>
          exact again canBeGiven reads
      | some request =>
          cases reads
          exact absurd asks readLetters_ne_command
  | case6 options argument name option found value rest isLong again =>
      obtain ⟨changed, gives, reads⟩ := exists_of_bind_eq_ok reads
      exact again changed (canBeGiven.giveValue (List.mem_of_find?_eq_some found) gives) reads
  | case8 options argument name option found next rest isWord isLong again =>
      obtain ⟨changed, gives, reads⟩ := exists_of_bind_eq_ok reads
      exact again changed (canBeGiven.giveValue (List.mem_of_find?_eq_some found) gives) reads
  | case11 options argument rest value noValue isLong unfound again =>
      obtain ⟨changed, gives, reads⟩ := exists_of_bind_eq_ok reads
      exact again changed (canBeGiven.giveOverwrite gives) reads
  | case12 options argument rest value noValue isLong unfound other again =>
      exact again canBeGiven reads
  | _ =>
      -- In the other cases reading ends without a command.
      cases reads

end Options.CanBeGiven

end AheadOfTime.CommandLine
