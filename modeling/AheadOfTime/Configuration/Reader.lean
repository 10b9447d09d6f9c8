import AheadOfTime.Configuration
import AheadOfTime.Decoding

/-!
# Reading configurations

How configurations are written in TOML.  The settings stand in tables; every setting
and every table may be left out, and no other keys are allowed.
-/

namespace AheadOfTime

inductive ConfigurationTextError where
  | malformed
  | unfit (error : DecodingError)
  deriving DecidableEq

namespace Configuration

def setting (name : String) (decoder : Decoder α)
    (store : Configuration → Option α → Configuration) : Field Configuration :=
  .of name (Decoder.optional decoder) store

/-- How a table of settings is written, as far as it changes a configuration that has
been read in part. -/
def table (title : String) (fields : List (Field Configuration)) (blank : Configuration) :
    Shape Configuration Configuration where
  title
  fields
  blank
  finish := .ok
  closed := true
  surplus := .ignored

def tableField (name title : String) (fields : List (Field Configuration)) :
    Field Configuration :=
  ⟨name, fun document configuration => (table title fields configuration).decode document⟩

def projectField : Field Configuration :=
  tableField "project" "struct ProjectConfig"
    [setting "group-id" Decoder.text fun draft groupId => { draft with groupId },
      setting "artifact-id" Decoder.text fun draft artifactId => { draft with artifactId }]

def outputField : Field Configuration :=
  tableField "output" "struct OutputConfig"
    [setting "sources" Decoder.path fun draft sources => { draft with sources },
      setting "resources" Decoder.path fun draft resources => { draft with resources },
      setting "classes" Decoder.path fun draft classes => { draft with classes },
      setting "classpath" Decoder.path fun draft classpathDirectory =>
        { draft with classpathDirectory }]

def compilerField : Field Configuration :=
  tableField "compiler" "struct CompilerConfig"
    [setting "program" Decoder.text fun draft compiler => { draft with compiler },
      setting "classpath" (Decoder.list Decoder.path) fun draft compilerClasspath =>
        { draft with compilerClasspath },
      setting "options" (Decoder.list Decoder.text) fun draft compilerOptions =>
        { draft with compilerOptions }]

def nativeImageField : Field Configuration :=
  tableField "native-image" "struct NativeImageConfig"
    [setting "overwrite-startup-arguments" Decoder.boolean fun draft overwrite =>
      { draft with overwrite }]

def shape : Shape Configuration Configuration :=
  table "struct ProcessConfig"
    [setting "application" Decoder.typeName fun draft application =>
        { draft with application },
      setting "graph" Decoder.path fun draft graph => { draft with graph },
      projectField, outputField, compilerField, nativeImageField]
    empty

def read (text : String) : Except ConfigurationTextError Configuration :=
  match Toml.read? text with
  | none => .error .malformed
  | some document => (shape.decode document).mapError .unfit

end Configuration

end AheadOfTime
