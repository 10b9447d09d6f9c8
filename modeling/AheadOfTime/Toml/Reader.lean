import AheadOfTime.Toml.Scalar
import AheadOfTime.Toml.Table

/-!
# Reading TOML

A TOML text is a list of lines: headers, which choose the table that the following
lines add to, and pairs of a key and a value.
-/

namespace AheadOfTime.Toml

mutual

/-- A value. At most three steps are taken for each character; `depth` is the number
of containers still allowed. -/
def value? : (steps depth : Nat) → List Char → Option (Document × List Char)
  | 0, _, _ => none
  | steps + 1, depth, input =>
      match input with
      | '"' :: _ | '\'' :: _ => do
          let (chars, rest) ← text? input
          return (.text chars, rest)
      | 't' :: 'r' :: 'u' :: 'e' :: rest => some (.boolean true, rest)
      | 'f' :: 'a' :: 'l' :: 's' :: 'e' :: rest => some (.boolean false, rest)
      | '[' :: rest =>
          match depth with
          | 0 => none
          | depth + 1 => do
              let (items, rest) ← items? steps depth rest
              return (.sequence items, rest)
      | '\x7b' :: rest =>
          match depth with
          | 0 => none
          | depth + 1 =>
              match skipBlank rest with
              | '\x7d' :: rest => some (.mapping [], rest)
              | rest => do
                  let (table, rest) ← pairs? steps depth [] rest
                  return (table.toDocument, rest)
      | _ => number? input

/-- The items of a sequence up to its closing bracket. -/
def items? : (steps depth : Nat) → List Char → Option (List Document × List Char)
  | 0, _, _ => none
  | steps + 1, depth, input => do
      match ← skipLines? input.length input with
      | ']' :: rest => return ([], rest)
      | rest => do
          let (item, rest) ← value? steps depth rest
          match ← skipLines? rest.length rest with
          | ',' :: rest => do
              let (items, rest) ← items? steps depth rest
              return (item :: items, rest)
          | ']' :: rest => return ([item], rest)
          | _ => none

/-- The pairs of an inline table up to its closing brace, added to the pairs before
them. -/
def pairs? : (steps depth : Nat) → Table → List Char → Option (Table × List Char)
  | 0, _, _, _ => none
  | steps + 1, depth, table, input => do
      let (path, key, rest) ← key? (depthLimit - 1) input
      let rest ← expect? '=' rest
      let (value, rest) ← value? steps depth (skipBlank rest)
      let table ← table.addValue path key value
      match skipBlank rest with
      | ',' :: rest => pairs? steps depth table rest
      | '\x7d' :: rest => return (table, rest)
      | _ => none

end

inductive Header where
  | root
  | table (path : List String) (key : String)
  | element (path : List String) (key : String)

/-- What the lines so far have built: the finished tables, and the table that lines
add to. -/
structure Progress where
  finished : Table
  header : Header
  current : Table

namespace Progress

def start : Progress :=
  ⟨[], .root, []⟩

def close? (progress : Progress) : Option Table :=
  match progress.header with
  | .root => some progress.current
  | .table path key => progress.finished.closeTable path key progress.current
  | .element path key => progress.finished.closeElement path key progress.current

/-- Go on under the header of a table. -/
def openTable? (progress : Progress) (path : List String) (key : String) :
    Option Progress := do
  let finished ← progress.close?
  let (finished, known) ← finished.openTable path key
  return ⟨finished, .table path key, known⟩

/-- Go on under the header of an element of an array of tables. -/
def openElement? (progress : Progress) (path : List String) (key : String) :
    Option Progress := do
  let finished ← progress.close?
  let finished ← finished.openElement path key
  return ⟨finished, .element path key, []⟩

def add? (progress : Progress) (path : List String) (key : String) (value : Document) :
    Option Progress := do
  let current ← progress.current.addValue path key value
  return { progress with current }

end Progress

/-- Read a header or a pair, and the rest of its line. -/
def line? (progress : Progress) (input : List Char) : Option (Progress × List Char) := do
  match input with
  | '[' :: '[' :: rest =>
      let (path, key, rest) ← key? (depthLimit - 1) rest
      let rest ← expect? ']' rest
      let rest ← expect? ']' rest
      let rest ← lineEnd? rest
      return (← progress.openElement? path key, rest)
  | '[' :: rest =>
      let (path, key, rest) ← key? (depthLimit - 1) rest
      let rest ← expect? ']' rest
      let rest ← lineEnd? rest
      return (← progress.openTable? path key, rest)
  | _ =>
      let (path, key, rest) ← key? (depthLimit - 1) input
      let rest ← expect? '=' rest
      let rest := skipBlank rest
      let (value, rest) ← value? (3 * rest.length + 3) (depthLimit - 1) rest
      let rest ← lineEnd? rest
      return (← progress.add? path key value, rest)

def lines? : (steps : Nat) → Progress → List Char → Option Progress
  | 0, _, _ => none
  | steps + 1, progress, input =>
      match skipBlank input with
      | [] => some progress
      | '#' :: rest => do
          let rest ← lineEnd? ('#' :: rest)
          lines? steps progress rest
      | '\n' :: rest => lines? steps progress rest
      | '\r' :: '\n' :: rest => lines? steps progress rest
      | rest => do
          let (progress, rest) ← line? progress rest
          lines? steps progress rest

/-- The document that a TOML text stands for; a byte order mark at its start does
not count. -/
def read? (input : String) : Option Document := do
  let chars := input.toList
  let chars := if chars.head? = some '\uFEFF' then chars.drop 1 else chars
  let progress ← lines? (chars.length + 1) .start chars
  let table ← progress.close?
  return table.toDocument

end AheadOfTime.Toml
