import AheadOfTime.Binary64.Shortest
import AheadOfTime.Document
import AheadOfTime.Json.Reader
import AheadOfTime.Path
import AheadOfTime.Unicode.Visible
import AheadOfTime.Toml.Reader
import AheadOfTime.TypeName

/-!
# Decoding documents

A decoder turns a document into a value of the domain or says why it cannot.
Structures are described by their fields; the description serves the mapping form
and the sequence form, in which the fields stand in the order of their
declaration.
-/

namespace AheadOfTime

inductive DocumentFormat where
  | json
  | toml
  deriving DecidableEq

namespace DocumentFormat

def read? : DocumentFormat → String → Option Document
  | json => Json.read?
  | toml => Toml.read?

/-- How messages about a text write numbers. -/
def numberLayout : DocumentFormat → Binary64.Layout
  | json => Json.numberLayout
  | toml => ⟨none, none, true, true⟩

end DocumentFormat

/-- What a decoder met. -/
inductive Found where
  | null
  | boolean (value : Bool)
  | integer (value : Int)
  | real (value : Binary64)
  | text (value : String)
  | sequence
  | mapping
  | bareVariant
  deriving DecidableEq

namespace Found

def ofDocument : Document → Found
  | .null => null
  | .boolean value => boolean value
  | .integer value => integer value
  | .real value => real value
  | .text value => text value
  | .sequence _ => sequence
  | .mapping _ => mapping

/-- A number in a message; infinities and the like have no point. -/
def realText (layout : Binary64.Layout) (value : Binary64) : String :=
  "floating point `" ++ layout.write value ++ "`"

def message (format : DocumentFormat) : Found → String
  | null => "null"
  | boolean value => "boolean `" ++ toString value ++ "`"
  | integer value => "integer `" ++ toString value ++ "`"
  | real value => realText format.numberLayout value
  | text value => "string " ++ Text.shown value
  | sequence => "sequence"
  | mapping => "map"
  | bareVariant => "unit variant"

end Found

inductive DecodingError where
  | missingField (name : String)
  | duplicateField (name : String)
  | unknownField (name : String) (known : List String)
  | unknownVariant (name : String) (known : List String)
  | invalidType (found : Found) (wanted : String)
  | invalidValue (found : Found) (wanted : String)
  | invalidLength (length : Nat) (wanted : String)
  | noVariant (type : String)
  | typeName (error : TypeNameError)
  | surplusItems
  deriving DecidableEq

namespace DecodingError

def ticked (name : String) : String :=
  "`" ++ name ++ "`"

/-- The names that were possible, as a message lists them. -/
def expectation : List String → String
  | [] => "there are no fields"
  | [name] => "expected " ++ ticked name
  | [first, second] => "expected " ++ ticked first ++ " or " ++ ticked second
  | names => "expected one of " ++ ", ".intercalate (names.map ticked)

def message (format : DocumentFormat) : DecodingError → String
  | missingField name => "missing field " ++ ticked name
  | duplicateField name => "duplicate field " ++ ticked name
  | unknownField name known => "unknown field " ++ ticked name ++ ", " ++ expectation known
  | unknownVariant name known => "unknown variant " ++ ticked name ++ ", " ++ expectation known
  | invalidType found wanted =>
      "invalid type: " ++ found.message format ++ ", expected " ++ wanted
  | invalidValue found wanted =>
      "invalid value: " ++ found.message format ++ ", expected " ++ wanted
  | invalidLength length wanted =>
      "invalid length " ++ toString length ++ ", expected " ++ wanted
  | noVariant type => "data did not match any variant of untagged enum " ++ type
  | typeName error => error.message
  | surplusItems => "trailing characters"

end DecodingError

/-- A decoder of values of type `α`. -/
abbrev Decoder (α : Type) := Document → Except DecodingError α

namespace Decoder

def refuse (document : Document) (wanted : String) : Except DecodingError α :=
  .error (.invalidType (.ofDocument document) wanted)

def textAs (wanted : String) : Decoder String
  | .text value => .ok value
  | document => refuse document wanted

def text : Decoder String :=
  textAs "a string"

def path : Decoder Path := fun document => do
  return ⟨← textAs "path string" document⟩

def boolean : Decoder Bool
  | .boolean value => .ok value
  | document => refuse document "a boolean"

def typeName : Decoder TypeName := fun document => do
  (TypeName.parse (← text document)).mapError .typeName

def optional (decoder : Decoder α) : Decoder (Option α)
  | .null => .ok none
  | document => some <$> decoder document

def list (decoder : Decoder α) : Decoder (List α)
  | .sequence items => items.mapM decoder
  | document => refuse document "a sequence"

def ofWord (words : List (String × α)) (word : String) : Except DecodingError α :=
  match words.lookup word with
  | some value => .ok value
  | none => .error (.unknownVariant word (words.map Prod.fst))

/-- Accept what may stand for nothing beside a word. -/
def nothing : Decoder Unit
  | .null => .ok ()
  | .mapping [] => .ok ()
  | document => refuse document "unit"

/-- A word or a mapping of one entry, taken apart: the word and what stands beside
it. -/
def variant : Document → Except DecodingError (String × Option Document)
  | .text word => .ok (word, none)
  | .mapping [(word, payload)] => .ok (word, some payload)
  | .mapping _ => .error (.invalidValue .mapping "map with a single key")
  | document => refuse document "string or map"

/-- One of several words, which may be the only key of a mapping. -/
def word (words : List (String × α)) : Decoder α := fun document => do
  let (name, payload) ← variant document
  let value ← ofWord words name
  match payload with
  | none => return value
  | some payload =>
      nothing payload
      return value

end Decoder

/-- A field: its name, and how a document goes into a draft of the structure. -/
structure Field (δ : Type) where
  name : String
  put : Document → δ → Except DecodingError δ

namespace Field

def of (name : String) (decoder : Decoder α) (store : δ → α → δ) : Field δ :=
  ⟨name, fun document draft => return store draft (← decoder document)⟩

end Field

/-- What to do with items of a sequence beyond the last field. -/
inductive Surplus where
  | counted
  | malformed
  | ignored

/-- How a structure is written: its fields in order, the draft without any of them,
and how a draft becomes a value, or which field it lacks for that. -/
structure Shape (δ α : Type) where
  title : String
  fields : List (Field δ)
  blank : δ
  finish : δ → Except String α
  /-- Whether keys that are no fields are refused. -/
  closed : Bool
  surplus : Surplus

namespace Shape

def names (shape : Shape δ α) : List String :=
  shape.fields.map Field.name

def itemCount (count : Nat) : String :=
  if count = 1 then "1 element" else toString count ++ " elements"

/-- Put the entries of a mapping into a draft, in order. A field may come only
once. -/
def putEntries (shape : Shape δ α) :
    (seen : List String) → δ → List (String × Document) → Except DecodingError δ
  | _, draft, [] => .ok draft
  | seen, draft, (key, document) :: rest =>
      match shape.fields.find? fun field => field.name == key with
      | none =>
          if shape.closed then
            .error (.unknownField key shape.names)
          else
            putEntries shape seen draft rest
      | some field =>
          if seen.contains key then
            .error (.duplicateField key)
          else do
            let draft ← field.put document draft
            putEntries shape (key :: seen) draft rest

/-- The value that a mapping stands for. -/
def ofEntries (shape : Shape δ α) (entries : List (String × Document)) :
    Except DecodingError α := do
  let draft ← shape.putEntries [] shape.blank entries
  (shape.finish draft).mapError .missingField

/-- Put items into a draft, one field after the other. The second result is the
number of items left over. -/
def putItems : List (Field δ) → δ → List Document → Except DecodingError (δ × Nat)
  | [], draft, items => .ok (draft, items.length)
  | _ :: _, draft, [] => .ok (draft, 0)
  | field :: fields, draft, item :: items => do
      let draft ← field.put item draft
      putItems fields draft items

/-- The value that a sequence stands for. -/
def ofItems (shape : Shape δ α) (items : List Document) : Except DecodingError α := do
  let (draft, left) ← putItems shape.fields shape.blank items
  match shape.finish draft with
  | .error missing =>
      let wanted := shape.title ++ " with " ++ itemCount shape.fields.length
      .error (.invalidLength (shape.names.idxOf missing) wanted)
  | .ok value =>
      if left = 0 then
        .ok value
      else
        match shape.surplus with
        | .counted =>
            .error (.invalidLength items.length
              (itemCount shape.fields.length ++ " in sequence"))
        | .malformed => .error .surplusItems
        | .ignored => .ok value

def decode (shape : Shape δ α) : Decoder α
  | .mapping entries => shape.ofEntries entries
  | .sequence items => shape.ofItems items
  | document => Decoder.refuse document shape.title

end Shape

def kindKey : String := "kind"

def kindWord (words : List (String × κ)) : Decoder κ := fun document => do
  Decoder.ofWord words (← Decoder.textAs "variant identifier" document)

def takeKind (words : List (String × κ)) :
    (known : Option κ) → List (String × Document) →
      Except DecodingError (κ × List (String × Document))
  | none, [] => .error (.missingField kindKey)
  | some kind, [] => .ok (kind, [])
  | known, (key, document) :: rest =>
      if key = kindKey then
        match known with
        | some _ => .error (.duplicateField kindKey)
        | none => do
            let kind ← kindWord words document
            takeKind words (some kind) rest
      else do
        let (kind, others) ← takeKind words known rest
        return (kind, (key, document) :: others)

/-- The kind of a structure and the rest of it. In a sequence the kind comes
first. -/
def splitKind (title : String) (words : List (String × κ)) :
    Document → Except DecodingError (κ × Document)
  | .mapping entries => do
      let (kind, others) ← takeKind words none entries
      return (kind, .mapping others)
  | .sequence [] => .error (.missingField kindKey)
  | .sequence (first :: items) => do
      return (← kindWord words first, .sequence items)
  | document => Decoder.refuse document ("internally tagged enum " ++ title)

end AheadOfTime
