import AheadOfTime.Configuration

/-!
# Command-line arguments

A command line names a command and its options.  An option is given at most once,
with its value after an equals sign or as the next argument.
-/

namespace AheadOfTime.CommandLine

/-- What can be done for a project. -/
inductive Command where
  | run
  | showSources
  | showHints
  deriving DecidableEq

namespace Command

def words : List (String × Command) :=
  [("process", .run), ("generate", .showSources), ("hints", .showHints)]

end Command

/-- The options of a command: where the project and its configuration are, and
settings that have precedence over the configuration. -/
structure Options where
  directory : Option Path
  configuration : Option Path
  overrides : Configuration
  deriving DecidableEq

/-- What a command line asks for. -/
inductive Request where
  | command (command : Command) (options : Options)
  | version
  | help
  deriving DecidableEq

/-- A command line that asks for nothing that can be done. -/
inductive Misuse where
  | noCommand
  | unknownCommand (word : String)
  | unexpected (argument : String)
  | noValue (option : String)
  | badValue (option : String) (value : String)
  | repeated (option : String)
  deriving DecidableEq

def noOptions : Options :=
  ⟨none, none, .empty⟩

/-- An option with a value: its name, and how a value changes the options. A value
that makes no sense, or a second value, is an error. -/
structure ValueOption where
  name : String
  isGiven : Options → Bool
  put : String → Options → Option Options

/-- A path as a value: it is not empty. -/
def pathValue (value : String) : Option Path :=
  if value = "" then none else some ⟨value⟩

def valueOptions : List ValueOption := [
  ⟨"dir", fun options => options.directory.isSome, fun value options =>
    (pathValue value).map fun path => { options with directory := some path }⟩,
  ⟨"config", fun options => options.configuration.isSome, fun value options =>
    (pathValue value).map fun path => { options with configuration := some path }⟩,
  ⟨"graph", fun options => options.overrides.graph.isSome, fun value options =>
    (pathValue value).map fun path =>
      { options with overrides := { options.overrides with graph := some path } }⟩,
  ⟨"application", fun options => options.overrides.application.isSome, fun value options =>
    (TypeName.parse value).toOption.map fun type =>
      { options with overrides := { options.overrides with application := some type } }⟩,
  ⟨"group-id", fun options => options.overrides.groupId.isSome, fun value options =>
    some { options with overrides := { options.overrides with groupId := some value } }⟩,
  ⟨"artifact-id", fun options => options.overrides.artifactId.isSome, fun value options =>
    some { options with overrides := { options.overrides with artifactId := some value } }⟩,
  ⟨"source-output", fun options => options.overrides.sources.isSome, fun value options =>
    (pathValue value).map fun path =>
      { options with overrides := { options.overrides with sources := some path } }⟩,
  ⟨"resource-output", fun options => options.overrides.resources.isSome, fun value options =>
    (pathValue value).map fun path =>
      { options with overrides := { options.overrides with resources := some path } }⟩,
  ⟨"class-output", fun options => options.overrides.classes.isSome, fun value options =>
    (pathValue value).map fun path =>
      { options with overrides := { options.overrides with classes := some path } }⟩,
  ⟨"classpath-dir", fun options => options.overrides.classpathDirectory.isSome,
    fun value options => (pathValue value).map fun path =>
      { options with
        overrides := { options.overrides with classpathDirectory := some path } }⟩,
  ⟨"javac", fun options => options.overrides.compiler.isSome, fun value options =>
    some { options with overrides := { options.overrides with compiler := some value } }⟩]

/-- The option without a value that asks for startup arguments to be replaced. -/
def overwriteName : String := "overwrite-startup-arguments"

/-- The option without a value that asks for more messages. -/
def verboseName : String := "verbose"

def helpWord : String := "help"

def giveValue (option : ValueOption) (value : String) (options : Options) :
    Except Misuse Options :=
  if option.isGiven options then
    .error (.repeated option.name)
  else
    match option.put value options with
    | some changed => .ok changed
    | none => .error (.badValue option.name value)

/-- Ask for startup arguments to be replaced. -/
def giveOverwrite (options : Options) : Except Misuse Options :=
  if options.overrides.overwrite.isSome then
    .error (.repeated overwriteName)
  else
    .ok { options with overrides := { options.overrides with overwrite := some true } }

inductive Argument where
  | long (name : String) (value : Option String)
  | short (letters : List Char)
  | dashes
  | word (text : String)

/-- The text before the first equals sign, and the text after it if there is one. -/
def splitAtEquals : List Char → List Char × Option (List Char)
  | [] => ([], none)
  | '=' :: rest => ([], some rest)
  | c :: rest =>
      let (name, value) := splitAtEquals rest
      (c :: name, value)

/-- What an argument is by its form. A single dash is a word. -/
def Argument.of (text : String) : Argument :=
  match text.toList with
  | ['-', '-'] => .dashes
  | '-' :: '-' :: rest =>
      let (name, value) := splitAtEquals rest
      .long (String.ofList name) (value.map String.ofList)
  | '-' :: c :: rest => .short (c :: rest)
  | _ => .word text

def isValue (text : String) : Bool :=
  match Argument.of text with
  | .word _ => true
  | _ => false

/-- What short options ask for: nothing but more messages, or help, or the version
where that can be asked for. -/
def readLetters (versionAllowed : Bool) : List Char → Except Misuse (Option Request)
  | [] => .ok none
  | 'v' :: rest => readLetters versionAllowed rest
  | 'h' :: _ => .ok (some .help)
  | c :: _ =>
      if versionAllowed && c == 'V' then
        .ok (some .version)
      else
        .error (.unexpected (String.ofList ['-', c]))

/-- Read the arguments after a command. Nothing may follow two dashes. -/
def readOptions (command : Command) (options : Options) :
    List String → Except Misuse Request
  | [] => .ok (.command command options)
  | argument :: rest =>
      match Argument.of argument with
      | .word text => .error (.unexpected text)
      | .dashes =>
          match rest with
          | [] => .ok (.command command options)
          | surplus :: _ => .error (.unexpected surplus)
      | .short letters => do
          match ← readLetters false letters with
          | some request => return request
          | none => readOptions command options rest
      | .long name value =>
          match valueOptions.find? fun option => option.name == name with
          | some option =>
              match value, rest with
              | some value, rest => do
                  readOptions command (← giveValue option value options) rest
              | none, [] => .error (.noValue name)
              | none, next :: rest => do
                  if isValue next then
                    readOptions command (← giveValue option next options) rest
                  else
                    .error (.noValue name)
          | none =>
              if value.isSome then .error (.unexpected argument)
              else if name = overwriteName then do
                readOptions command (← giveOverwrite options) rest
              else if name = verboseName then readOptions command options rest
              else if name = helpWord then .ok .help
              else .error (.unexpected argument)

/-- Read the arguments after the word `help`: the name of a command may follow. -/
def readHelp : List String → Except Misuse Request
  | [] => .ok .help
  | [text] =>
      if text = helpWord || (Command.words.lookup text).isSome then
        .ok .help
      else
        .error (.unknownCommand text)
  | _ :: surplus :: _ => .error (.unexpected surplus)

/-- Read a command line. Before the command there may be options that go with any
command. -/
def read : List String → Except Misuse Request
  | [] => .error .noCommand
  | argument :: rest =>
      match Argument.of argument with
      | .word text =>
          match Command.words.lookup text with
          | some command => readOptions command noOptions rest
          | none => if text = helpWord then readHelp rest else .error (.unknownCommand text)
      | .dashes =>
          match rest with
          | [] => .error .noCommand
          | surplus :: _ => .error (.unexpected surplus)
      | .short letters => do
          match ← readLetters true letters with
          | some request => return request
          | none => read rest
      | .long name value =>
          if value.isSome then .error (.unexpected argument)
          else if name = verboseName then read rest
          else if name = "version" then .ok .version
          else if name = helpWord then .ok .help
          else .error (.unexpected argument)

end AheadOfTime.CommandLine
