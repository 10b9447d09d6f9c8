import AheadOfTime.Compilation.Diagnostic
import AheadOfTime.Unicode.Classes

/-!
# Compiler output

Reading the messages of `javac` from its output.  A message about a source file is a
header line, then the line of source that it is about, then a line with a caret under
the column, then indented lines with details.  A message about no file is a header
line and details.  Blank lines count for nothing, and the lines that count errors and
warnings end a message.
-/

namespace AheadOfTime.CompilerOutput

def dropWord? {α : Type} (words : List (String × α)) (text : List Char) :
    Option (α × List Char) :=
  words.findSome? fun (word, meaning) =>
    (Text.dropStart? word.toList text).map fun rest => (meaning, rest)

def locatedWords : List (String × Severity) :=
  [("error: ", .error), ("warning: ", .warning), ("note: ", .note)]

/-- The severities as they are written at the start of a line. -/
def generalWords : List (String × Severity) :=
  [("error: ", .error), ("warning: ", .warning), ("Note: ", .note)]

/-- Lines and columns are numbers below this. -/
def positionLimit : Nat := Nat.pow 2 32

def decimalValue (digits : List Char) : Nat :=
  digits.foldl (fun value c => value * 10 + (c.toNat - '0'.toNat)) 0

/-- The line that digits stand for. Digits other than `0` to `9` and numbers beyond the
limit stand for zero. -/
def lineNumber (digits : List Char) : Nat :=
  if digits.all Char.isDigit && decimalValue digits < positionLimit then
    decimalValue digits
  else
    0

/-- What follows the name of the source file in a header line. -/
structure HeaderTail where
  digits : List Char
  severity : Severity
  message : List Char

/-- Read what follows the name of the source file: a colon, the line, a colon, the
severity, a colon and the message. -/
def headerTail? (text : List Char) : Option HeaderTail :=
  match Text.dropStart? [':'] text with
  | none => none
  | some text =>
      let digits := text.takeWhile Unicode.isDecimalDigit
      if digits.isEmpty then
        none
      else
        match Text.dropStart? [':', ' '] (text.dropWhile Unicode.isDecimalDigit) with
        | none => none
        | some text =>
            (dropWord? locatedWords text).map fun (severity, message) =>
              ⟨digits, severity, message⟩

def sourceEnd : List Char := ['.', 'j', 'a', 'v', 'a']

/-- Read a header line about a source file: the name of the file, which is as long as
possible and has a character before its end, and what follows it. -/
def located? : List Char → Option (List Char × HeaderTail)
  | [] => none
  | c :: rest =>
      match located? rest with
      | some (source, tail) => some (c :: source, tail)
      | none =>
          ((Text.dropStart? sourceEnd rest).bind headerTail?).map fun tail =>
            (c :: sourceEnd, tail)

/-- What follows the number in a line that counts messages. -/
def summaryWords : List String :=
  [" error", " errors", " warning", " warnings"]

/-- Whether a line counts the errors or the warnings. -/
def isSummary (line : List Char) : Bool :=
  !(line.takeWhile Unicode.isDecimalDigit).isEmpty &&
    summaryWords.contains (String.ofList (line.dropWhile Unicode.isDecimalDigit))

inductive Part where
  | source
  | caret
  | detail
  deriving DecidableEq

inductive Line where
  | blank
  | header (diagnostic : Diagnostic) (next : Part)
  | summary
  | plain
  deriving DecidableEq

def Line.of (line : List Char) : Line :=
  if Text.isBlank line then
    .blank
  else
    match located? line with
    | some (source, tail) =>
        .header
          (.located tail.severity (String.ofList tail.message) ⟨String.ofList source⟩
            (lineNumber tail.digits))
          .source
    | none =>
        match dropWord? generalWords line with
        | some (severity, message) =>
            .header (.general severity (String.ofList message)) .detail
        | none => if isSummary line then .summary else .plain

def tabWidth : Nat := 8

def advance (column : Nat) (c : Char) : Nat :=
  if c = '\t' then (column / tabWidth + 1) * tabWidth else column + 1

/-- The column of a caret in its line, the first column being one. -/
def caretColumn (line : List Char) : Nat :=
  (line.takeWhile (· ≠ '^')).foldl advance 0 + 1

/-- The column of a caret as far as it is within the limit. -/
def column? (line : List Char) : Option Nat :=
  if caretColumn line < positionLimit then some (caretColumn line) else none

def addDetail (diagnostic : Diagnostic) (line : List Char) : Diagnostic :=
  { diagnostic with
    message := diagnostic.message ++ "\n" ++ String.ofList (Text.trim line) }

/-- What has been read: the finished messages, the message that may go on with the
part that may come next, and the lines that belong to no message. -/
structure Reading where
  finished : List Diagnostic
  current : Option (Diagnostic × Part)
  unparsed : List String
  deriving DecidableEq

namespace Reading

def start : Reading :=
  ⟨[], none, []⟩

def diagnostics (reading : Reading) : List Diagnostic :=
  reading.finished ++ (reading.current.map Prod.fst).toList

def finish (reading : Reading) : Reading :=
  ⟨reading.diagnostics, none, reading.unparsed⟩

def goOn (reading : Reading) (diagnostic : Diagnostic) (next : Part) : Reading :=
  { reading with current := some (diagnostic, next) }

/-- A line that belongs to no message. It finishes the current one. -/
def setAside (reading : Reading) (line : List Char) : Reading :=
  { reading.finish with unparsed := reading.unparsed ++ [String.ofList line] }

/-- A line that may be details of a message: it is if it begins with a blank. -/
def takeDetail (reading : Reading) (diagnostic : Diagnostic) (line : List Char) :
    Reading :=
  if (line.head?.map Unicode.isBlank).getD false then
    reading.goOn (addDetail diagnostic line) .detail
  else
    reading.setAside line

/-- A line that is neither blank nor a header nor a count: what it is depends on the
lines before it. -/
def takePlain (reading : Reading) (line : List Char) : Reading :=
  match reading.current with
  | none => reading.setAside line
  | some (diagnostic, .source) => reading.goOn diagnostic .caret
  | some (diagnostic, .caret) =>
      if Text.trim line = ['^'] then
        reading.goOn { diagnostic with column := column? line } .detail
      else
        reading.takeDetail diagnostic line
  | some (diagnostic, .detail) => reading.takeDetail diagnostic line

def take (reading : Reading) (line : List Char) : Reading :=
  match Line.of line with
  | .blank => reading
  | .header diagnostic next => reading.finish.goOn diagnostic next
  | .summary => reading.finish
  | .plain => reading.takePlain line

end Reading

def read (text : String) : Reading :=
  (Text.lines text.toList).foldl Reading.take .start

end AheadOfTime.CompilerOutput
