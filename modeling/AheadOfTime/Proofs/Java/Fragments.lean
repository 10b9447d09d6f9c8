import AheadOfTime.Proofs.Java.SourceUnit
import AheadOfTime.Proofs.Java.Statement

/-!
# Code around texts

Generated source is code, text literals and comments.  Code is read as its code units
and a text literal as its text, so another text changes nothing else of what is read.
-/

namespace AheadOfTime.Java

theorem Reads.nil : Reads [] [] :=
  ⟨[], by simp, by simp⟩

theorem ReadsBefore.append {allowed : List Nat → Prop} {first second : List Char}
    {firstElements secondElements : List Element}
    (firstReads : ReadsBefore allowed first firstElements)
    (secondReads : Reads second secondElements)
    (follows : ∀ units : List InputUnit,
      (∀ rest, translate? .even (second ++ rest) = (translate? .even rest).map (units ++ ·)) →
        ∀ rest, allowed (units.map InputUnit.code ++ rest)) :
    Reads (first ++ second) (firstElements ++ secondElements) := by
  obtain ⟨firstUnits, firstTranslated, firstRead⟩ := firstReads
  obtain ⟨secondUnits, secondTranslated, secondRead⟩ := secondReads
  have allowedAfter := follows secondUnits secondTranslated
  refine ⟨firstUnits ++ secondUnits, fun rest => ?_, fun rest _ => ?_⟩
  · rw [List.append_assoc, firstTranslated, secondTranslated, Option.map_map]
    simp [Function.comp_def]
  · rw [List.map_append, List.append_assoc, firstRead _ (allowedAfter rest),
      secondRead rest trivial, Option.map_map]
    simp [Function.comp_def]

theorem Reads.append {first second : List Char} {firstElements secondElements : List Element}
    (firstReads : Reads first firstElements) (secondReads : Reads second secondElements) :
    Reads (first ++ second) (firstElements ++ secondElements) :=
  ReadsBefore.append firstReads secondReads fun _ _ _ => trivial

/-- Whether source begins with a character that neither opens a text nor begins an
escape. -/
def beginsApart : List Char → Bool
  | [] => false
  | c :: _ => c != '"' && c != '\\'

theorem beginsApart_append {first : List Char} (apart : beginsApart first = true)
    (second : List Char) : beginsApart (first ++ second) = true := by
  cases first with
  | nil =>
      cases apart
  | cons c rest =>
      exact apart

theorem head?_codes_of_beginsApart {source : List Char} (apart : beginsApart source = true)
    {units : List InputUnit} (translated : ∀ rest,
      translate? .even (source ++ rest) = (translate? .even rest).map (units ++ ·))
    (rest : List Nat) : (units.map InputUnit.code ++ rest).head? ≠ some '"'.toNat := by
  have whole := translated []
  have ends : translate? .even [] = some [] := rfl
  cases source with
  | nil =>
      cases apart
  | cons c chars =>
      simp only [beginsApart, Bool.and_eq_true, bne_iff_ne] at apart
      obtain ⟨noQuote, noBackslash⟩ := apart
      rw [List.cons_append, translate?_char noBackslash, ends, Option.map_some,
        Option.map_eq_some_iff] at whole
      obtain ⟨others, -, parts⟩ := whole
      rw [List.append_nil] at parts
      obtain ⟨unit, unitRest, unitParts⟩ := List.exists_cons_of_ne_nil (codeUnits_ne_nil c)
      rw [← parts, unitParts]
      intro begins
      have same : unit = '"'.toNat := Option.some.inj begins
      have isQuote : '"'.toNat ∈ codeUnits c := by
        rw [unitParts, ← same]
        exact List.mem_cons_self
      exact noQuote (Char.toNat_inj.1 (eq_of_mem_codeUnits isQuote (by decide)))

theorem ReadsApart.append {first second : List Char}
    {firstElements secondElements : List Element} (firstReads : ReadsApart first firstElements)
    (secondReads : Reads second secondElements) (apart : beginsApart second = true) :
    Reads (first ++ second) (firstElements ++ secondElements) :=
  ReadsBefore.append firstReads secondReads fun _ translated =>
    head?_codes_of_beginsApart apart translated

def codeElements (code : List Char) : List Element :=
  (encodeUnits code).map .unit

theorem codeElements_append (first second : List Char) :
    codeElements (first ++ second) = codeElements first ++ codeElements second := by
  simp [codeElements, encodeUnits]

/-- A character that begins neither a text nor a comment nor an escape. -/
def isCode (c : Char) : Bool :=
  !(['"', '\'', '/', '\\'].contains c)

theorem isCode_iff {c : Char} :
    isCode c = true ↔ c ≠ '"' ∧ c ≠ '\'' ∧ c ≠ '/' ∧ c ≠ '\\' := by
  simp [isCode]

theorem isCode_of_isLineChar {c : Char} (inLine : isLineChar c = true) : isCode c = true :=
  isCode_iff.2 (isLineChar_iff.1 inLine).2.2

theorem isCode_of_isPlain {c : Char} (plain : isPlain c = true) : isCode c = true :=
  isCode_of_isLineChar (isLineChar_of_isPlain plain)

theorem mem_encodeUnits_of_ascii {code : List Char} {c : Char} (ascii : c.toNat < 0x80)
    (member : c.toNat ∈ encodeUnits code) : c ∈ code := by
  obtain ⟨other, isOther, inUnits⟩ := List.mem_flatMap.1 member
  have same : other = c := Char.toNat_inj.1 (eq_of_mem_codeUnits inUnits ascii)
  exact same ▸ isOther

namespace Mode

theorem elements?_units {units : List Nat}
    (each : ∀ unit ∈ units, unit ≠ '"'.toNat ∧ unit ≠ '/'.toNat ∧ unit ≠ '\''.toNat)
    (rest : List Nat) :
    elements? code (units ++ rest) = (elements? code rest).map (units.map .unit ++ ·) := by
  induction units with
  | nil =>
      simp
  | cons unit units inductionHypothesis =>
      obtain ⟨⟨noQuote, noSlash, noMark⟩, others⟩ := List.forall_mem_cons.1 each
      have goesOn : next code unit = some ([.unit unit], code) := by
        rw [next, inCode, if_neg noQuote, if_neg noSlash, if_neg noMark]
      rw [List.cons_append, elements?_of_next goesOn, inductionHypothesis others,
        Option.map_map]
      simp [Function.comp_def]

/-- A comment goes on up to a star with a slash behind it. -/
theorem elements?_comment {units : List Nat} (noSlash : '/'.toNat ∉ units) (rest : List Nat) :
    ∀ mode, mode = comment ∨ mode = star →
      elements? mode (units ++ '*'.toNat :: '/'.toNat :: rest) = elements? code rest := by
  induction units with
  | nil =>
      rintro mode (rfl | rfl)
      · exact (elements?_of_next_nil rfl _).trans (elements?_of_next_nil rfl rest)
      · exact (elements?_of_next_nil rfl _).trans (elements?_of_next_nil rfl rest)
  | cons unit units inductionHypothesis =>
      rw [List.mem_cons, not_or] at noSlash
      obtain ⟨different, others⟩ := noSlash
      have later := inductionHypothesis others
      rintro mode (rfl | rfl)
      · refine (elements?_of_next_nil rfl _).trans (later _ ?_)
        split_ifs <;> simp
      · refine (elements?_of_next_nil rfl _).trans (later _ ?_)
        rw [if_neg (Ne.symm different)]
        split_ifs <;> simp

end Mode

theorem reads_code {code : List Char} (each : ∀ c ∈ code, isCode c = true) :
    Reads code (codeElements code) := by
  have absent : ∀ c : Char, isCode c = false → c ∉ code := by
    intro c notCode member
    rw [each c member] at notCode
    cases notCode
  refine ⟨(encodeUnits code).map .raw, translate?_chars (absent '\\' (by decide)), ?_⟩
  intro rest _
  have codes : ((encodeUnits code).map InputUnit.raw).map InputUnit.code = encodeUnits code := by
    rw [List.map_map]
    exact List.map_id _
  rw [codes, codeElements]
  refine Mode.elements?_units (fun unit member => ?_) rest
  have unlike : ∀ c : Char, c.toNat < 0x80 → isCode c = false → unit ≠ c.toNat := by
    rintro c ascii notCode rfl
    exact absent c notCode (mem_encodeUnits_of_ascii ascii member)
  exact ⟨unlike '"' (by decide) (by decide), unlike '/' (by decide) (by decide),
    unlike '\'' (by decide) (by decide)⟩

/-- A slash with a blank after it begins no comment. -/
theorem reads_quotient : Reads ['/', ' '] (codeElements ['/', ' ']) := by
  refine ⟨[.raw '/'.toNat, .raw ' '.toNat], translate?_chars (by decide), fun rest _ => ?_⟩
  exact (Mode.elements?_of_next_nil rfl _).trans (Mode.elements?_of_next rfl rest)

theorem reads_comment {text : List Char} (noSlash : '/' ∉ text) (noBackslash : '\\' ∉ text) :
    Reads ('/' :: '*' :: (text ++ ['*', '/'])) [] := by
  have plain : '\\' ∉ '/' :: '*' :: (text ++ ['*', '/']) := by
    simpa using noBackslash
  refine ⟨_, translate?_chars plain, fun rest _ => ?_⟩
  have codes : ((encodeUnits ('/' :: '*' :: (text ++ ['*', '/']))).map InputUnit.raw).map
      InputUnit.code = '/'.toNat :: '*'.toNat :: (encodeUnits text ++ ['*'.toNat, '/'.toNat]) := by
    rw [List.map_map]
    refine (List.map_id _).trans ?_
    simp [encodeUnits, codeUnits_of_ascii]
  have inside : '/'.toNat ∉ encodeUnits text :=
    fun member => noSlash (mem_encodeUnits_of_ascii (by decide) member)
  rw [codes, List.cons_append, List.cons_append, List.append_assoc]
  refine (Mode.elements?_of_next_nil rfl _).trans ((Mode.elements?_of_next_nil rfl _).trans ?_)
  refine (Mode.elements?_comment inside rest _ (.inl rfl)).trans ?_
  exact Option.map_id'.symm

/-! ## Fragments -/

/-- A part of source. -/
inductive Fragment where
  | code (text : String)
  | quoted (text : String)
  | comment (text : String)

namespace Fragment

def text : Fragment → String
  | code text => text
  | quoted text => stringLiteral text
  | comment text => "/*" ++ text ++ "*/"

def elements : Fragment → List Element
  | code text => codeElements text.toList
  | quoted text => [.text (encodeUnits text.toList)]
  | comment _ => []

def quoted? : Fragment → Option String
  | quoted text => some text
  | code _ | comment _ => none

def mapText (change : String → String) : Fragment → Fragment
  | code text => code text
  | quoted text => quoted (change text)
  | comment text => comment text

def source (fragments : List Fragment) : String :=
  String.join (fragments.map text)

@[simp]
theorem source_nil : source [] = "" := by
  simp [source]

@[simp]
theorem source_cons (fragment : Fragment) (rest : List Fragment) :
    source (fragment :: rest) = fragment.text ++ source rest := by
  simp [source]

@[simp]
theorem source_append (first second : List Fragment) :
    source (first ++ second) = source first ++ source second := by
  simp [source]

/-- Whether code is read unit by unit, and a comment ends only at its end. -/
def Sound : Fragment → Prop
  | code text => Reads text.toList (codeElements text.toList)
  | quoted _ => True
  | comment text => '/' ∉ text.toList ∧ '\\' ∉ text.toList

/-- Whether no text literal is last, or before anything that begins with a quote or a
backslash. -/
def Spaced : List Fragment → Prop
  | [] => True
  | quoted _ :: rest => beginsApart (source rest).toList = true ∧ Spaced rest
  | code _ :: rest => Spaced rest
  | comment _ :: rest => Spaced rest

theorem beginsApart_source_append {first : List Fragment}
    (apart : beginsApart (source first).toList = true) (second : List Fragment) :
    beginsApart (source (first ++ second)).toList = true := by
  rw [source_append, String.toList_append]
  exact beginsApart_append apart _

theorem Spaced.append {first second : List Fragment} (firstSpaced : Spaced first)
    (secondSpaced : Spaced second) : Spaced (first ++ second) := by
  induction first with
  | nil =>
      exact secondSpaced
  | cons fragment rest inductionHypothesis =>
      cases fragment with
      | code text =>
          exact inductionHypothesis firstSpaced
      | comment text =>
          exact inductionHypothesis firstSpaced
      | quoted text =>
          obtain ⟨apart, restSpaced⟩ := firstSpaced
          exact ⟨beginsApart_source_append apart second, inductionHypothesis restSpaced⟩

theorem spaced_flatMap {α : Type} {items : List α} {fragments : α → List Fragment}
    (each : ∀ item ∈ items, Spaced (fragments item)) : Spaced (items.flatMap fragments) := by
  induction items with
  | nil =>
      trivial
  | cons item items inductionHypothesis =>
      obtain ⟨first, others⟩ := List.forall_mem_cons.1 each
      exact first.append (inductionHypothesis others)

/-- Fragments are read one after another. -/
theorem reads_source {fragments : List Fragment} (sound : ∀ fragment ∈ fragments, fragment.Sound)
    (spaced : Spaced fragments) :
    Reads (source fragments).toList (fragments.flatMap elements) := by
  induction fragments with
  | nil =>
      exact Reads.nil
  | cons fragment rest inductionHypothesis =>
      obtain ⟨soundHere, soundLater⟩ := List.forall_mem_cons.1 sound
      rw [source_cons, String.toList_append, List.flatMap_cons]
      cases fragment with
      | code text =>
          exact Reads.append soundHere (inductionHypothesis soundLater spaced)
      | comment text =>
          have reads := reads_comment soundHere.1 soundHere.2
          have whole : (Fragment.comment text).text.toList =
              '/' :: '*' :: (text.toList ++ ['*', '/']) := by
            simp [Fragment.text]
          rw [whole]
          exact Reads.append reads (inductionHypothesis soundLater spaced)
      | quoted text =>
          obtain ⟨apart, restSpaced⟩ := spaced
          exact (readsApart_stringLiteral text).append (inductionHypothesis soundLater restSpaced)
            apart

theorem text_ne_quoted_of_beginsApart {text : String} (rest : List Char) :
    beginsApart ((stringLiteral text).toList ++ rest) = false := by
  rw [(isPrintable_stringLiteral text).1]
  rfl

theorem beginsApart_mapText {fragments : List Fragment} (change : String → String) :
    beginsApart (source (fragments.map (mapText change))).toList =
      beginsApart (source fragments).toList := by
  induction fragments with
  | nil =>
      rfl
  | cons fragment rest inductionHypothesis =>
      rw [List.map_cons, source_cons, source_cons, String.toList_append, String.toList_append]
      cases fragment with
      | code text =>
          change beginsApart (text.toList ++ _) = beginsApart (text.toList ++ _)
          cases text.toList with
          | nil =>
              exact inductionHypothesis
          | cons c chars =>
              rfl
      | comment text =>
          simp [mapText, Fragment.text, beginsApart]
      | quoted text =>
          exact (text_ne_quoted_of_beginsApart _).trans (text_ne_quoted_of_beginsApart _).symm

theorem Spaced.mapText {fragments : List Fragment} (spaced : Spaced fragments)
    (change : String → String) : Spaced (fragments.map (mapText change)) := by
  induction fragments with
  | nil =>
      trivial
  | cons fragment rest inductionHypothesis =>
      cases fragment with
      | code text =>
          exact inductionHypothesis spaced
      | comment text =>
          exact inductionHypothesis spaced
      | quoted text =>
          obtain ⟨apart, restSpaced⟩ := spaced
          exact ⟨(beginsApart_mapText change).trans apart, inductionHypothesis restSpaced⟩

theorem sound_mapText {fragments : List Fragment}
    (sound : ∀ fragment ∈ fragments, fragment.Sound) (change : String → String) :
    ∀ fragment ∈ fragments.map (mapText change), fragment.Sound := by
  refine List.forall_mem_map.2 fun fragment member => ?_
  have soundHere := sound fragment member
  cases fragment with
  | code text =>
      exact soundHere
  | comment text =>
      exact soundHere
  | quoted text =>
      trivial

/-- Whatever the texts are changed to, they are read as such, and everything else is read
as before. -/
theorem readSource?_mapText {fragments : List Fragment}
    (sound : ∀ fragment ∈ fragments, fragment.Sound) (spaced : Spaced fragments)
    (change : String → String) :
    readSource? (source (fragments.map (mapText change))).toList =
      some ((fragments.map (mapText change)).flatMap elements) :=
  readSource?_of_readsApart (reads_source (sound_mapText sound change) (spaced.mapText change)).apart

end Fragment

end AheadOfTime.Java
