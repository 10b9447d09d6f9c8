import AheadOfTime.Path

/-!
# Diagnostics

The messages of a compiler, and the report of the errors among them.
-/

namespace AheadOfTime

/-- How severe a message is. Only errors make a compilation fail. -/
inductive Severity where
  | error
  | warning
  | note
  deriving DecidableEq

namespace Severity

def word : Severity → String
  | error => "error"
  | warning => "warning"
  | note => "note"

end Severity

/-- A message of a compiler, with the place in the sources that it is about as far as
it is known. -/
structure Diagnostic where
  severity : Severity
  message : String
  source : Option Path
  line : Option Nat
  column : Option Nat
  deriving DecidableEq

namespace Diagnostic

def general (severity : Severity) (message : String) : Diagnostic :=
  ⟨severity, message, none, none, none⟩

def located (severity : Severity) (message : String) (source : Path) (line : Nat) :
    Diagnostic :=
  ⟨severity, message, some source, some line, none⟩

def isError (diagnostic : Diagnostic) : Bool :=
  diagnostic.severity == .error

/-- The line and the column as they are written after a message. A column without a
line is not written. -/
def positionText (diagnostic : Diagnostic) : String :=
  match diagnostic.line, diagnostic.column with
  | some line, some column => " " ++ toString line ++ ":" ++ toString column
  | some line, none => " " ++ toString line
  | none, _ => ""

/-- A message as it is shown: its text, the source file and the position. -/
def display (diagnostic : Diagnostic) : String :=
  let source :=
    match diagnostic.source with
    | some source => " " ++ source.text
    | none => ""
  diagnostic.message ++ source ++ diagnostic.positionText

def errors (diagnostics : List Diagnostic) : List Diagnostic :=
  diagnostics.filter isError

/-- The report of the errors among messages: each on a line of its own. -/
def errorReport (diagnostics : List Diagnostic) : String :=
  String.join ((errors diagnostics).map fun error => "\n" ++ error.display)

end Diagnostic

end AheadOfTime
