import AheadOfTime.Compilation
import AheadOfTime.Compilation.Output
import AheadOfTime.Settings

/-!
# The compiler `javac`

The host compiler of real runs is a program: it gets a command line, and what it
writes is read as messages.
-/

namespace AheadOfTime

structure ProgramResult where
  success : Bool
  output : String
  errorOutput : String

/-- How programs run: the result of a program for its arguments, none if there is no
such program, and what it does to the files. -/
abbrev Launcher :=
  (program : String) → (arguments : List String) → FileTree →
    Option ProgramResult × FileTree

/-- The program that compiles, with the classpath and the options that it gets. -/
structure Javac where
  program : String
  classpath : List Path
  options : List String
  deriving DecidableEq

namespace Javac

def ofSettings (settings : Settings) : Javac :=
  ⟨settings.compiler, settings.compilerClasspath, settings.compilerOptions⟩

/-- The arguments for the classpath; there are none without entries. -/
def classpathArguments (javac : Javac) : List String :=
  if javac.classpath.isEmpty then
    []
  else
    ["-cp", ":".intercalate (javac.classpath.map Path.text)]

def arguments (javac : Javac) (request : CompileRequest) : List String :=
  ["-d", request.classes.text] ++ javac.classpathArguments ++ javac.options ++
    request.sources.map Path.text

/-- Whether a text can be passed to a program: a zero character would end it. -/
def isPassable (text : String) : Bool :=
  !text.toList.contains '\x00'

def launch (javac : Javac) (launcher : Launcher) (arguments : List String)
    (files : FileTree) : Option ProgramResult × FileTree :=
  if (javac.program :: arguments).all isPassable then
    launcher javac.program arguments files
  else
    (none, files)

/-- Whether the program is there: it can tell its version. -/
def isAvailable (javac : Javac) (launcher : Launcher) (files : FileTree) : Bool :=
  match (javac.launch launcher ["-version"] files).1 with
  | some result => result.success
  | none => false

/-- What a result reports. Messages are expected in the error output, and looked for
in the other output, too. -/
def report (result : ProgramResult) : HostReport :=
  let reading := CompilerOutput.read (result.errorOutput ++ result.output)
  ⟨result.success, reading.diagnostics, reading.unparsed⟩

def invoke (javac : Javac) (launcher : Launcher) (request : CompileRequest)
    (files : FileTree) : Except CompilationError HostReport × FileTree :=
  match javac.launch launcher (javac.arguments request) files with
  | (none, files) => (.error (.notLaunched javac.program), files)
  | (some result, files) => (.ok (report result), files)

def host (javac : Javac) (launcher : Launcher) : Host :=
  ⟨javac.program, javac.invoke launcher⟩

end Javac

end AheadOfTime
