import AheadOfTime.Decoding
import AheadOfTime.Java.SourceUnit
import AheadOfTime.Proofs.TypeName.Candidates

/-!
# The grammar of type names

A text reads as a type name if it is, but for blanks around it, a list of identifiers with
dots between them; else reading tells the first part that is no identifier.  A type name that
has been read gives its text back, whole or as a package and a simple name, and the types that
are built in are those that their texts read as.
-/

namespace AheadOfTime

namespace TypeName

/-- Whether a text is one part of a dotted name: a letter, an underscore or a dollar sign, with
more of these and numbers behind it, that spells no reserved word. -/
structure IsSegment (part : List Char) : Prop where
  shape : ∃ first rest, part = first :: rest ∧ isIdentifierStart first = true ∧
    ∀ c ∈ rest, isIdentifierPart c = true
  unreserved : String.ofList part ∉ reservedWords

/-- Whether a text is a list of parts with dots between them. -/
structure IsDotted (text : List Char) (parts : List (List Char)) : Prop where
  nonempty : parts ≠ []
  undotted : ∀ part ∈ parts, '.' ∉ part
  joined : text = Text.join ['.'] parts

theorem isSegment_iff {part : List Char} :
    IsSegment part ↔ isIdentifier (String.ofList part) = true := by
  have shape : (∃ first rest, part = first :: rest ∧ isIdentifierStart first = true ∧
      ∀ c ∈ rest, isIdentifierPart c = true) ↔ isIdentifierShape part = true := by
    cases part with
    | nil =>
        simp [isIdentifierShape]
    | cons first rest =>
        rw [isIdentifierShape, Bool.and_eq_true, List.all_eq_true]
        constructor
        · rintro ⟨_, _, same, start, each⟩
          obtain ⟨rfl, rfl⟩ := List.cons.inj same
          exact ⟨start, each⟩
        · rintro ⟨start, each⟩
          exact ⟨first, rest, rfl, start, each⟩
  rw [isIdentifier, String.toList_ofList, Bool.and_eq_true, ← shape]
  constructor
  · intro segment
    exact ⟨segment.shape, by simpa using segment.unreserved⟩
  · rintro ⟨shaped, unreserved⟩
    exact ⟨shaped, by simpa using unreserved⟩

/-- A text has just one list of parts. -/
theorem isDotted_iff {text : List Char} {parts : List (List Char)} :
    IsDotted text parts ↔ Text.split '.' text = parts := by
  constructor
  · intro dotted
    rw [dotted.joined, Text.split_join dotted.nonempty dotted.undotted]
  · rintro rfl
    exact ⟨Text.split_ne_nil '.' text, fun _ member => Text.separator_not_mem_of_mem_split member,
      (Text.join_split '.' text).symm⟩

/-- The part that is told is the first one that is no identifier. -/
theorem identify_eq_error_iff {parts : List (List Char)} {segment : String} :
    identify parts = .error segment ↔
      ∃ before after, parts = before ++ segment.toList :: after ∧
        (∀ part ∈ before, IsSegment part) ∧ ¬ IsSegment segment.toList := by
  constructor
  · intro fails
    induction parts with
    | nil =>
        cases fails
    | cons part parts inductionHypothesis =>
        rw [identify] at fails
        split at fails
        · rename_i unknown
          cases fails
          refine ⟨[], parts, by rw [String.toList_ofList]; rfl, List.forall_mem_nil _, ?_⟩
          rw [isSegment_iff, String.toList_ofList]
          intro valid
          rw [Identifier.ofString?, dif_pos valid] at unknown
          cases unknown
        · rename_i name found
          cases rest : identify parts with
          | ok others =>
              rw [rest] at fails
              cases fails
          | error bad =>
              rw [rest] at fails
              cases fails
              obtain ⟨before, after, whole, each, isBad⟩ := inductionHypothesis rest
              have isName : IsSegment part := by
                rw [isSegment_iff, ← Identifier.ofString?_eq_some_iff.1 found]
                exact name.valid
              exact ⟨part :: before, after, congrArg (part :: ·) whole,
                List.forall_mem_cons.2 ⟨isName, each⟩, isBad⟩
  · rintro ⟨before, after, rfl, each, isBad⟩
    induction before with
    | nil =>
        have unknown : Identifier.ofString? segment = none := by
          rw [isSegment_iff, String.ofList_toList] at isBad
          exact dif_neg isBad
        rw [List.nil_append, identify, String.ofList_toList, unknown]
    | cons part before inductionHypothesis =>
        obtain ⟨here, others⟩ := List.forall_mem_cons.1 each
        have known : Identifier.ofString? (String.ofList part) =
            some ⟨String.ofList part, isSegment_iff.1 here⟩ :=
          dif_pos _
        rw [List.cons_append, identify, known, inductionHypothesis others]

theorem parse_eq_empty_iff {text : String} :
    parse text = .error .empty ↔ Text.trim text.toList = [] := by
  unfold parse
  simp only
  by_cases empty : Text.trim text.toList = []
  · rw [if_pos (List.isEmpty_iff.2 empty)]
    exact iff_of_true rfl empty
  · rw [if_neg fun isEmpty => empty (List.isEmpty_iff.1 isEmpty)]
    refine iff_of_false ?_ empty
    cases identified : identify (Text.split '.' (Text.trim text.toList)) with
    | error segment =>
        exact nofun
    | ok names =>
        have parts := identify_eq_ok_iff.1 identified
        cases names with
        | nil =>
            exact absurd parts (Text.split_ne_nil _ _)
        | cons first rest =>
            exact nofun

theorem parse_eq_invalidSegment_iff {text segment name : String} :
    parse text = .error (.invalidSegment segment name) ↔
      name.toList = Text.trim text.toList ∧ name ≠ "" ∧
        identify (Text.split '.' name.toList) = .error segment := by
  unfold parse
  simp only
  by_cases empty : Text.trim text.toList = []
  · rw [if_pos (List.isEmpty_iff.2 empty)]
    refine iff_of_false nofun ?_
    rintro ⟨same, filled, -⟩
    exact filled (String.toList_eq_nil_iff.1 (same.trans empty))
  · rw [if_neg fun isEmpty => empty (List.isEmpty_iff.1 isEmpty)]
    constructor
    · intro fails
      cases identified : identify (Text.split '.' (Text.trim text.toList)) with
      | error bad =>
          rw [identified] at fails
          cases fails
          refine ⟨String.toList_ofList, ?_, ?_⟩
          · rw [Ne, String.ofList_eq_empty_iff]
            exact empty
          · rw [String.toList_ofList]
            exact identified
      | ok names =>
          rw [identified] at fails
          cases names with
          | nil =>
              cases fails
          | cons first rest =>
              cases fails
    · rintro ⟨same, -, identified⟩
      rw [← same, identified, String.ofList_toList]

/-- A type name is read back from its package and its simple name. -/
theorem parseIn_packageText (type : TypeName) :
    parseIn type.packageText type.simple.text = .ok type :=
  type.peer_text type.simple

def boxClasses : List (String × String) :=
  [("boolean", "java.lang.Boolean"), ("byte", "java.lang.Byte"), ("char", "java.lang.Character"),
    ("short", "java.lang.Short"), ("int", "java.lang.Integer"), ("long", "java.lang.Long"),
    ("float", "java.lang.Float"), ("double", "java.lang.Double"), ("void", "java.lang.Void")]

/-- The types that are built in, with the texts that stand for them. -/
inductive IsBuiltIn : String → TypeName → Prop where
  | boolean (value : Bool) : IsBuiltIn "boolean" (Literal.boolean value).type
  | short (value : Int64) (fits : Literal.isShort value = true) :
      IsBuiltIn "int" (Literal.integer value).type
  | long (value : Int64) (exceeds : Literal.isShort value = false) :
      IsBuiltIn "long" (Literal.integer value).type
  | real (value : Binary64) : IsBuiltIn "double" (Literal.real value).type
  | text (value : String) : IsBuiltIn "java.lang.String" (Literal.text value).type
  | boxed (primitive : TypeName) (box : String)
      (listed : (primitive.canonical, box) ∈ boxClasses) : IsBuiltIn box primitive.boxed
  | beanFactory : IsBuiltIn
      "org.springframework.beans.factory.config.ConfigurableListableBeanFactory"
      Java.beanFactoryType
  | initializer : IsBuiltIn "org.springframework.context.ApplicationContextInitializer"
      Java.initializerType
  | context : IsBuiltIn "org.springframework.context.support.GenericApplicationContext"
      Java.contextType

theorem parse_of_segments {chars : List Char} {type : TypeName}
    (same : Text.join ['.'] (type.segments.map Identifier.chars) = chars) :
    parse (String.ofList chars) = .ok type := by
  have whole : type.canonical = String.ofList chars := congrArg String.ofList same
  rw [← whole]
  exact parse_canonical type

theorem parse_boxClasses : ∀ pair ∈ boxClasses,
    (parse pair.1).toOption.map boxed = (parse pair.2).toOption := by
  decide +kernel

theorem parse_of_isBuiltIn {text : String} {type : TypeName} (builtIn : IsBuiltIn text type) :
    parse text = .ok type := by
  cases builtIn with
  | boolean value =>
      have reads : parse "boolean" = .ok (unpackaged { text := "boolean" }) :=
        parse_of_segments (by decide +kernel)
      exact reads
  | short value fits =>
      rw [Literal.type, if_pos fits]
      exact parse_of_segments (by decide +kernel)
  | long value exceeds =>
      rw [Literal.type, exceeds]
      exact parse_of_segments (by decide +kernel)
  | real value =>
      have reads : parse "double" = .ok (unpackaged { text := "double" }) :=
        parse_of_segments (by decide +kernel)
      exact reads
  | text value =>
      have reads : parse "java.lang.String" = .ok (lang stringName) :=
        parse_of_segments (by decide +kernel)
      exact reads
  | boxed primitive text listed =>
      have both := parse_boxClasses _ listed
      rw [parse_canonical] at both
      cases reads : parse text with
      | error fault =>
          rw [reads] at both
          cases both
      | ok type =>
          rw [reads] at both
          exact congrArg Except.ok (Option.some.inj both).symm
  | beanFactory =>
      exact parse_of_segments (by decide +kernel)
  | initializer =>
      exact parse_of_segments (by decide +kernel)
  | context =>
      exact parse_of_segments (by decide +kernel)

theorem typeName_text (text : String) :
    Decoder.typeName (.text text) = (parse text).mapError .typeName :=
  rfl

/-- Type names are read from just the texts of their grammar, a text that is none is refused
for its first wrong part, and what has been read gives its text back. The built-in types are
what their texts read as, in a graph too, and an identifier names a peer in the package. -/
theorem parse_reads_grammar_and_gives_text_back :
    (∀ text, (∃ type, parse text = .ok type) ↔
      ∃ parts, IsDotted (Text.trim text.toList) parts ∧ ∀ part ∈ parts, IsSegment part) ∧
    (∀ text, parse text = .error .empty ↔ Text.trim text.toList = []) ∧
    (∀ text segment name, parse text = .error (.invalidSegment segment name) ↔
      name.toList = Text.trim text.toList ∧ name ≠ "" ∧
        ∃ before after, IsDotted name.toList (before ++ segment.toList :: after) ∧
          (∀ part ∈ before, IsSegment part) ∧ ¬ IsSegment segment.toList) ∧
    (∀ text type, parse text = .ok type →
      type.canonical.toList = Text.trim text.toList ∧
        parse type.canonical = .ok type ∧
        parseIn type.packageText type.simple.text = .ok type ∧
        '.' ∉ type.simple.text.toList) ∧
    Function.Injective canonical ∧
    (∀ text type, IsBuiltIn text type →
      parse text = .ok type ∧ Decoder.typeName (.text text) = .ok type) ∧
    ∀ (type : TypeName) (simple : String), isIdentifier simple = true →
      ∃ peer, type.peer simple = .ok peer ∧ peer.package = type.package ∧
        peer.simple.text = simple := by
  refine ⟨?_, fun _ => parse_eq_empty_iff, ?_, ?_, fun _ _ => canonical_injective, ?_, ?_⟩
  · intro text
    rw [exists_parse_eq_ok_iff]
    simp only [isDotted_iff, exists_eq_left', isSegment_iff]
  · intro text segment name
    rw [parse_eq_invalidSegment_iff, identify_eq_error_iff]
    simp only [isDotted_iff]
  · intro text type reads
    exact ⟨(parse_eq_ok_iff.1 reads).symm, parse_canonical type, type.parseIn_packageText,
      type.simple.dot_not_mem⟩
  · intro text type builtIn
    have reads := parse_of_isBuiltIn builtIn
    rw [typeName_text, reads]
    exact ⟨rfl, rfl⟩
  · intro type simple valid
    exact ⟨⟨type.package, ⟨simple, valid⟩⟩, type.peer_text ⟨simple, valid⟩, rfl, rfl⟩

theorem cache_reads_and_names_peer :
    let cache : TypeName := ⟨[{ text := "com" }, { text := "acme" }], { text := "Cache" }⟩
    parse " com.acme.Cache\n" = .ok cache ∧
      cache.canonical.toList = Text.trim " com.acme.Cache\n".toList ∧
      Decoder.typeName (.text "java.lang.Integer") =
        .ok (unpackaged { text := "int" }).boxed ∧
      ∃ peer, cache.peer "Cache__Helper" = .ok peer ∧ peer.package = cache.package ∧
        peer.simple.text = "Cache__Helper" := by
  intro cache
  obtain ⟨-, -, -, textBack, -, builtIns, peers⟩ := parse_reads_grammar_and_gives_text_back
  have reads : parse " com.acme.Cache\n" = .ok cache := by
    rw [parse_eq_ok_iff, canonical, toList_dotted]
    decide +kernel
  have boxes := builtIns "java.lang.Integer" _ (.boxed (unpackaged { text := "int" }) _ (by decide))
  exact ⟨reads, (textBack _ cache reads).1, boxes.2, peers cache _ (by decide)⟩

end TypeName

end AheadOfTime
