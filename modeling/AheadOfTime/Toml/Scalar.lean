import AheadOfTime.Json.Reader

/-!
# TOML keys, texts, numbers and dates

The tokens of the TOML grammar that hold no other value.  Each function reads one
token from the start of a text and gives back the rest.
-/

namespace AheadOfTime.Toml

def skipBlank (text : List Char) : List Char :=
  text.dropWhile fun c => c == ' ' || c == '\t'

/-- A character that comments may hold: a tab or no control character. -/
def isCommentChar (c : Char) : Bool :=
  c == '\t' || (0x20 ≤ c.toNat && c.toNat != 0x7F)

def newline? : List Char → Option (List Char)
  | '\n' :: rest => some rest
  | '\r' :: '\n' :: rest => some rest
  | _ => none

def skipComment (text : List Char) : List Char :=
  match text with
  | '#' :: rest => rest.dropWhile isCommentChar
  | _ => text

/-- What may follow the last token of a line: a comment, then the end of the line
or of the text. -/
def lineEnd? (text : List Char) : Option (List Char) :=
  match skipComment (skipBlank text) with
  | [] => some []
  | rest => newline? rest

/-- Skip blanks, line ends and comments that a line end follows. Each step uses up
a line, so `steps` need not exceed the length. -/
def skipLines? : (steps : Nat) → List Char → Option (List Char)
  | 0, text => some text
  | steps + 1, text =>
      match skipBlank text with
      | '#' :: rest => do
          let rest ← newline? (rest.dropWhile isCommentChar)
          skipLines? steps rest
      | '\n' :: rest => skipLines? steps rest
      | '\r' :: rest => do
          let rest ← newline? ('\r' :: rest)
          skipLines? steps rest
      | rest => some rest

def codePoint? (digits : List Char) : Option Char := do
  let values ← digits.mapM Json.hexValue?
  let code := values.foldl (fun code value => code * 16 + value) 0
  if code < 0xD800 ∨ (0xDFFF < code ∧ code < 0x110000) then
    return Char.ofNat code
  else
    none

def escape? : List Char → Option (Char × List Char)
  | 'b' :: rest => some ('\x08', rest)
  | 't' :: rest => some ('\t', rest)
  | 'n' :: rest => some ('\n', rest)
  | 'f' :: rest => some ('\x0c', rest)
  | 'r' :: rest => some ('\r', rest)
  | '"' :: rest => some ('"', rest)
  | '\\' :: rest => some ('\\', rest)
  | 'u' :: rest => do
      if rest.length < 4 then none else return (← codePoint? (rest.take 4), rest.drop 4)
  | 'U' :: rest => do
      if rest.length < 8 then none else return (← codePoint? (rest.take 8), rest.drop 8)
  | _ => none

def isTextChar (c : Char) : Bool :=
  isCommentChar c

/-- The characters of a one-line text up to its closing quote. -/
def basicEnd? : (steps : Nat) → List Char → Option (List Char × List Char)
  | 0, _ => none
  | _ + 1, [] => none
  | _ + 1, '"' :: rest => some ([], rest)
  | steps + 1, '\\' :: rest => do
      let (c, rest) ← escape? rest
      let (chars, rest) ← basicEnd? steps rest
      return (c :: chars, rest)
  | steps + 1, c :: rest =>
      if isTextChar c then do
        let (chars, rest) ← basicEnd? steps rest
        return (c :: chars, rest)
      else
        none

/-- The characters of a one-line text without escapes up to its closing quote. -/
def literalEnd? : List Char → Option (List Char × List Char)
  | [] => none
  | c :: rest =>
      if c = '\'' then
        some ([], rest)
      else if isTextChar c then do
        let (chars, rest) ← literalEnd? rest
        return (c :: chars, rest)
      else
        none

/-- What a line end after a backslash takes away: all blanks and line ends that
follow. -/
def skipContinuation? (text : List Char) : Option (List Char) := do
  let rest ← newline? (skipBlank text)
  let skip : (steps : Nat) → List Char → List Char := fun steps rest =>
    steps.repeat (fun rest =>
      match newline? (skipBlank rest) with
      | some next => next
      | none => skipBlank rest) rest
  return skip rest.length rest

/-- The quotes that close a text over several lines: three, after at most two that
belong to the text. The result is the quotes of the text and the rest. -/
def closingQuotes? (quote : Char) (text : List Char) : Option (List Char × List Char) :=
  let run := (text.takeWhile (· == quote)).length
  if 3 ≤ run then
    let extra := min (run - 3) 2
    some (List.replicate extra quote, text.drop (extra + 3))
  else
    none

/-- The characters of a text over several lines up to its closing quotes. -/
def basicLinesEnd? : (steps : Nat) → List Char → Option (List Char × List Char)
  | 0, _ => none
  | steps + 1, text =>
      match closingQuotes? '"' text with
      | some closed => some closed
      | none =>
          match text with
          | [] => none
          | '\\' :: rest =>
              match skipContinuation? rest with
              | some rest => basicLinesEnd? steps rest
              | none => do
                  let (c, rest) ← escape? rest
                  let (chars, rest) ← basicLinesEnd? steps rest
                  return (c :: chars, rest)
          | c :: rest =>
              match newline? text with
              | some rest => do
                  let (chars, rest) ← basicLinesEnd? steps rest
                  return ('\n' :: chars, rest)
              | none =>
                  if isTextChar c then do
                    let (chars, rest) ← basicLinesEnd? steps rest
                    return (c :: chars, rest)
                  else
                    none

/-- The characters of a text over several lines without escapes up to its closing
quotes. -/
def literalLinesEnd? : (steps : Nat) → List Char → Option (List Char × List Char)
  | 0, _ => none
  | steps + 1, text =>
      match closingQuotes? '\'' text with
      | some closed => some closed
      | none =>
          match newline? text, text with
          | some rest, _ => do
              let (chars, rest) ← literalLinesEnd? steps rest
              return ('\n' :: chars, rest)
          | none, [] => none
          | none, c :: rest =>
              if isTextChar c then do
                let (chars, rest) ← literalLinesEnd? steps rest
                return (c :: chars, rest)
              else
                none

/-- A text of any of the four kinds, from its opening quote on. -/
def text? (input : List Char) : Option (String × List Char) := do
  let steps := input.length + 1
  let (chars, rest) ←
    match input with
    | '"' :: '"' :: '"' :: rest => basicLinesEnd? steps ((newline? rest).getD rest)
    | '"' :: rest => basicEnd? steps rest
    | '\'' :: '\'' :: '\'' :: rest => literalLinesEnd? steps ((newline? rest).getD rest)
    | '\'' :: rest => literalEnd? rest
    | _ => none
  return (String.ofList chars, rest)

/-! ## Keys -/

def isBareKeyChar (c : Char) : Bool :=
  c.isAlphanum || c == '_' || c == '-'

def simpleKey? (input : List Char) : Option (String × List Char) :=
  match input with
  | '"' :: rest => do
      let (chars, rest) ← basicEnd? (rest.length + 1) rest
      return (String.ofList chars, rest)
  | '\'' :: rest => do
      let (chars, rest) ← literalEnd? rest
      return (String.ofList chars, rest)
  | _ =>
      let bare := input.takeWhile isBareKeyChar
      if bare.isEmpty then none
      else some (String.ofList bare, input.drop bare.length)

/-- The number of parts that a key, or of values inside one another that a value,
must stay below. -/
def depthLimit : Nat := 80

/-- A key: the parts before the last one, and the last one. Blanks may stand around
each part. -/
def key? : (steps : Nat) → List Char → Option (List String × String × List Char)
  | 0, _ => none
  | steps + 1, input => do
      let (part, rest) ← simpleKey? (skipBlank input)
      match skipBlank rest with
      | '.' :: rest => do
          let (path, last, rest) ← key? steps rest
          return (part :: path, last, rest)
      | rest => return ([], part, rest)

/-- Digits of a class with single underscores between them, without the
underscores; `text` starts with such a digit. -/
def groupedDigits (isDigit : Char → Bool) : List Char → List Char × List Char
  | '_' :: c :: rest =>
      if isDigit c then
        let (digits, rest) := groupedDigits isDigit rest
        (c :: digits, rest)
      else
        ([], '_' :: c :: rest)
  | c :: rest =>
      if isDigit c then
        let (digits, rest) := groupedDigits isDigit rest
        (c :: digits, rest)
      else
        ([], c :: rest)
  | [] => ([], [])

/-- Grouped digits, at least one, an underscore not being the first character. -/
def someDigits? (isDigit : Char → Bool) (text : List Char) :
    Option (List Char × List Char) :=
  match text with
  | '_' :: _ => none
  | _ =>
      match groupedDigits isDigit text with
      | ([], _) => none
      | found => some found

/-- The digits of a decimal whole number: one zero, or no zero first. -/
def wholeDigits? (text : List Char) : Option (List Char × List Char) :=
  match text with
  | '0' :: rest => some (['0'], rest)
  | _ => someDigits? Char.isDigit text

def valueOf (base : Nat) (digits : List Char) : Nat :=
  digits.foldl (fun value digit => value * base + (Json.hexValue? digit).getD 0) 0

def integer? (value : Int) : Option Document :=
  if Int64.minValue.toInt ≤ value ∧ value ≤ Int64.maxValue.toInt then some (.integer value)
  else none

/-- A whole number in a base other than ten, after its mark. -/
def based? (base : Nat) (isDigit : Char → Bool) (text : List Char) :
    Option (Document × List Char) := do
  let (digits, rest) ← someDigits? isDigit text
  return (← integer? (valueOf base digits), rest)

def sign (text : List Char) : Bool × List Char :=
  match text with
  | '-' :: rest => (true, rest)
  | '+' :: rest => (false, rest)
  | _ => (false, text)

/-- The power of ten after an `e`. -/
def power? (text : List Char) : Option (Int × List Char) := do
  let (negative, text) := sign text
  let (digits, rest) ← someDigits? Char.isDigit text
  let size : Int := valueOf 10 digits
  return (if negative then -size else size, rest)

/-- The fraction and the power of ten of a number with at least one of them:
the digits after the point, the power, and the rest. -/
def fractionAndPower? (text : List Char) : Option (List Char × Int × List Char) :=
  match text with
  | '.' :: rest => do
      let (digits, rest) ← someDigits? Char.isDigit rest
      match rest with
      | 'e' :: rest | 'E' :: rest => do
          let (power, rest) ← power? rest
          return (digits, power, rest)
      | _ => return (digits, 0, rest)
  | 'e' :: rest | 'E' :: rest => do
      let (power, rest) ← power? rest
      return ([], power, rest)
  | _ => none

/-- A binary number. A positive one that is too large is refused, a negative one is
infinite. -/
def real? (text : List Char) : Option (Document × List Char) := do
  let (negative, start) := sign text
  let (whole, rest) ← wholeDigits? start
  let (fraction, power, rest) ← fractionAndPower? rest
  let value := Binary64.ofDecimal negative (valueOf 10 (whole ++ fraction))
    (power - fraction.length)
  if value = .infinite false then none else return (.real value, rest)

/-- Infinity or a value that is no number. -/
def special? (text : List Char) : Option (Document × List Char) :=
  let (negative, start) := sign text
  match start with
  | 'i' :: 'n' :: 'f' :: rest => some (.real (.infinite negative), rest)
  | 'n' :: 'a' :: 'n' :: rest => some (.real .nan, rest)
  | _ => none

def whole? (text : List Char) : Option (Document × List Char) :=
  match text with
  | '0' :: 'x' :: rest => based? 16 (fun c => (Json.hexValue? c).isSome) rest
  | '0' :: 'o' :: rest => based? 8 (fun c => '0' ≤ c && c ≤ '7') rest
  | '0' :: 'b' :: rest => based? 2 (fun c => c == '0' || c == '1') rest
  | _ => do
      let (negative, start) := sign text
      let (digits, rest) ← wholeDigits? start
      let size : Int := valueOf 10 digits
      return (← integer? (if negative then -size else size), rest)

/-- A number of exactly `count` digits, from `least` to `greatest`. -/
def field? (count least greatest : Nat) (text : List Char) : Option (Nat × List Char) :=
  let digits := text.take count
  let value := valueOf 10 digits
  if digits.length = count ∧ digits.all Char.isDigit ∧ least ≤ value ∧ value ≤ greatest then
    some (value, text.drop count)
  else
    none

def expect? (c : Char) : List Char → Option (List Char)
  | first :: rest => if first = c then some rest else none
  | [] => none

def daysOf (year month : Nat) : Nat :=
  if month = 2 then
    if year % 4 = 0 ∧ (year % 100 ≠ 0 ∨ year % 400 = 0) then 29 else 28
  else if month = 4 ∨ month = 6 ∨ month = 9 ∨ month = 11 then 30
  else 31

def date? (text : List Char) : Option (List Char) := do
  let (year, rest) ← field? 4 0 9999 text
  let rest ← expect? '-' rest
  let (month, rest) ← field? 2 1 12 rest
  let rest ← expect? '-' rest
  let (_, rest) ← field? 2 1 (daysOf year month) rest
  return rest

def time? (text : List Char) : Option (List Char) := do
  let (_, rest) ← field? 2 0 23 text
  let rest ← expect? ':' rest
  let (_, rest) ← field? 2 0 59 rest
  let rest ← expect? ':' rest
  let (_, rest) ← field? 2 0 60 rest
  match rest with
  | '.' :: digits =>
      let fraction := digits.takeWhile Char.isDigit
      if fraction.isEmpty then none else return digits.drop fraction.length
  | _ => return rest

def skipOffset (text : List Char) : List Char :=
  let signed (rest : List Char) : Option (List Char) := do
    let (_, rest) ← field? 2 0 23 rest
    let rest ← expect? ':' rest
    let (_, rest) ← field? 2 0 59 rest
    return rest
  match text with
  | 'Z' :: rest | 'z' :: rest => rest
  | '+' :: rest | '-' :: rest => (signed rest).getD text
  | _ => text

def skipTime (text : List Char) : List Char :=
  match text with
  | 'T' :: rest | 't' :: rest | ' ' :: rest =>
      match time? rest with
      | some rest => skipOffset rest
      | none => text
  | _ => text

def dateKey : String := "$__toml_private_datetime"

/-- A date, a time, or both: a mapping that holds its text. -/
def moment? (text : List Char) : Option (Document × List Char) := do
  let rest ←
    match date? text with
    | some rest => some (skipTime rest)
    | none => time? text
  let written := text.take (text.length - rest.length)
  return (.mapping [(dateKey, .text (String.ofList written))], rest)

def number? (text : List Char) : Option (Document × List Char) :=
  moment? text <|> real? text <|> special? text <|> whole? text

end AheadOfTime.Toml
