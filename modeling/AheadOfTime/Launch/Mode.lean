import AheadOfTime.Text

/-!
# Launch modes

How an application starts: with the classes that were generated for it, to have them
generated, or without them.
-/

namespace AheadOfTime

/-- How an application starts. -/
inductive LaunchMode where
  | optimized
  | generating
  | regular
  deriving DecidableEq

namespace LaunchMode

/-- What an application tells about its start. -/
def display : LaunchMode → String
  | optimized => "Run optimized application"
  | generating => "Optimizing application for Native"
  | regular => "Run regular application"

def generationArgument : String := "generateAot"

/-- The values of the environment variable that switch generated classes on, in lower
case. -/
def switchWords : List String := ["true", "1", "yes"]

/-- Whether a value of the environment variable switches generated classes on; blanks
around it and the case of letters do not matter. -/
def isSwitchedOn (value : Option String) : Bool :=
  match value with
  | none => false
  | some value =>
      switchWords.contains (String.ofList ((Text.trim value.toList).map Char.toLower))

/-- The mode for arguments of an application: generated classes are used if they are
switched on, whatever the arguments are. -/
def select (switchedOn : Bool) (arguments : List String) : LaunchMode :=
  if switchedOn then optimized
  else if arguments = [generationArgument] then generating
  else regular

end LaunchMode

end AheadOfTime
