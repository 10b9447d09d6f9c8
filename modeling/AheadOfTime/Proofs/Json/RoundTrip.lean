import AheadOfTime.Document
import AheadOfTime.Json.Reader
import Mathlib.Data.List.Basic

/-!
# Documents read back from their texts

The text of a document without numbers is read as that document.  Every reader is shown
to stop right behind what was written, whatever comes next; this carries the induction
over containers inside one another.
-/

namespace AheadOfTime

/-- Documents without numbers that have at most so many containers inside one another. -/
inductive Document.Fits : (depth : Nat) → Document → Prop where
  | null (depth : Nat) : Fits depth .null
  | boolean (depth : Nat) (value : Bool) : Fits depth (.boolean value)
  | text (depth : Nat) (value : String) : Fits depth (.text value)
  | sequence {depth : Nat} {items : List Document} (each : ∀ item ∈ items, Fits depth item) :
      Fits (depth + 1) (.sequence items)
  | mapping {depth : Nat} {entries : List (String × Document)}
      (each : ∀ entry ∈ entries, Fits depth entry.2) : Fits (depth + 1) (.mapping entries)

namespace Json

theorem hexValue?_hexDigit : ∀ value < 16, hexValue? (hexDigit value) = some value := by
  decide

theorem unicodeEscape?_control {c : Char} (control : c.toNat < 0x20) (rest : List Char) :
    unicodeEscape? ('0' :: '0' :: hexDigit (c.toNat / 16) :: hexDigit (c.toNat % 16) :: rest) =
      some (c, rest) := by
  have zero : hexValue? '0' = some 0 := by decide
  have high := hexValue?_hexDigit (c.toNat / 16) (by omega)
  have low := hexValue?_hexDigit (c.toNat % 16) (by omega)
  have code : ((0 * 16 + 0) * 16 + c.toNat / 16) * 16 + c.toNat % 16 = c.toNat := by omega
  have unit : fourHex?
      ('0' :: '0' :: hexDigit (c.toNat / 16) :: hexDigit (c.toNat % 16) :: rest) =
        some (c.toNat, rest) := by
    simp only [fourHex?, zero, high, low, Option.bind_eq_bind, Option.bind_some, code,
      Option.pure_def]
  have noSurrogate : ¬(0xD800 ≤ c.toNat ∧ c.toNat < 0xDC00) := by omega
  have noLowSurrogate : ¬(0xDC00 ≤ c.toNat ∧ c.toNat < 0xE000) := by omega
  simp only [unicodeEscape?, unit, Option.bind_eq_bind, Option.bind_some, if_neg noSurrogate,
    if_neg noLowSurrogate, Option.pure_def, Char.ofNat_toNat]

theorem textEnd?_escape (steps : Nat) (escape : List Char) {rest after : List Char} {c : Char}
    (escapes : escape? (escape ++ rest) = some (c, after)) :
    textEnd? (steps + 1) ('\\' :: escape ++ rest) =
      (textEnd? steps after).map fun (chars, rest) => (c :: chars, rest) := by
  rw [List.cons_append, textEnd?, escapes]
  simp only [Option.bind_eq_bind, Option.bind_some]
  cases textEnd? steps after <;> rfl

/-- A character of a text is read back from the way it is written between quotes. -/
theorem textEnd?_quotedChar (steps : Nat) (c : Char) (rest : List Char) :
    textEnd? (steps + 1) (quotedChar c ++ rest) =
      (textEnd? steps rest).map fun (chars, rest) => (c :: chars, rest) := by
  by_cases quote : c = '"'
  · subst quote
    exact textEnd?_escape steps ['"'] rfl
  by_cases backslash : c = '\\'
  · subst backslash
    exact textEnd?_escape steps ['\\'] rfl
  by_cases feed : c = '\n'
  · subst feed
    exact textEnd?_escape steps ['n'] rfl
  by_cases carriage : c = '\r'
  · subst carriage
    exact textEnd?_escape steps ['r'] rfl
  by_cases tab : c = '\t'
  · subst tab
    exact textEnd?_escape steps ['t'] rfl
  by_cases backspace : c = '\x08'
  · subst backspace
    exact textEnd?_escape steps ['b'] rfl
  by_cases formFeed : c = '\x0c'
  · subst formFeed
    exact textEnd?_escape steps ['f'] rfl
  rw [quotedChar, if_neg quote, if_neg backslash, if_neg feed, if_neg carriage, if_neg tab,
    if_neg backspace, if_neg formFeed]
  by_cases control : c.toNat < 0x20
  · rw [if_pos control]
    exact textEnd?_escape steps ['u', '0', '0', _, _] (unicodeEscape?_control control rest)
  · rw [if_neg control, List.singleton_append, textEnd?, if_neg control]
    · cases textEnd? steps rest <;> rfl
    · exact quote
    · intro isBackslash
      exact backslash isBackslash

theorem textEnd?_flatMap (chars rest : List Char) {steps : Nat} (enough : chars.length < steps) :
    textEnd? steps (chars.flatMap quotedChar ++ '"' :: rest) = some (chars, rest) := by
  induction chars generalizing steps with
  | nil =>
      obtain ⟨fewer, rfl⟩ : ∃ fewer, steps = fewer + 1 := Nat.exists_eq_add_one.2 enough
      rw [List.flatMap_nil, List.nil_append, textEnd?]
  | cons c chars inductionHypothesis =>
      obtain ⟨fewer, rfl⟩ : ∃ fewer, steps = fewer + 1 :=
        Nat.exists_eq_add_one.2 (by omega)
      have enoughLeft : chars.length < fewer := by
        rw [List.length_cons] at enough
        omega
      rw [List.flatMap_cons, List.append_assoc, textEnd?_quotedChar,
        inductionHypothesis enoughLeft]
      rfl

theorem quotedChar_ne_nil (c : Char) : quotedChar c ≠ [] := by
  have either {p : Prop} [Decidable p] {first second : List Char} (isFirst : first ≠ [])
      (isSecond : second ≠ []) : (if p then first else second) ≠ [] :=
    iteInduction (motive := (· ≠ [])) (fun _ => isFirst) fun _ => isSecond
  unfold quotedChar
  repeat' apply either
  all_goals exact List.cons_ne_nil _ _

theorem length_le_flatMap_quotedChar (chars : List Char) :
    chars.length ≤ (chars.flatMap quotedChar).length := by
  induction chars with
  | nil =>
      exact Nat.le_refl _
  | cons c chars inductionHypothesis =>
      have written : 1 ≤ (quotedChar c).length :=
        List.length_pos_iff.2 (quotedChar_ne_nil c)
      rw [List.flatMap_cons, List.length_append, List.length_cons]
      omega

theorem quotedText?_quoted (text : String) (rest : List Char) :
    quotedText? (quoted text ++ rest) = some (text, rest) := by
  have enough := length_le_flatMap_quotedChar text.toList
  have split : quoted text ++ rest =
      '"' :: (text.toList.flatMap quotedChar ++ '"' :: rest) := by
    simp [quoted]
  have read : textEnd? ((text.toList.flatMap quotedChar ++ '"' :: rest).length + 1)
      (text.toList.flatMap quotedChar ++ '"' :: rest) = some (text.toList, rest) := by
    apply textEnd?_flatMap
    rw [List.length_append, List.length_cons]
    omega
  rw [split, quotedText?, read]
  simp only [Option.bind_eq_bind, Option.bind_some, String.ofList_toList, Option.pure_def]

theorem skipBlank_lineStart (depth : Nat) (rest : List Char) :
    skipBlank (lineStart depth ++ rest) = skipBlank rest := by
  have blanks : ∀ count, skipBlank (List.replicate count ' ' ++ rest) = skipBlank rest := by
    intro count
    induction count with
    | zero =>
        rfl
    | succ count inductionHypothesis =>
        rw [List.replicate_succ, List.cons_append, skipBlank, List.dropWhile_cons_of_pos rfl]
        exact inductionHypothesis
  rw [lineStart, List.cons_append, skipBlank, List.dropWhile_cons_of_pos rfl]
  exact blanks _

/-- Blanks before a value do not matter. -/
theorem value?_congr {first second : List Char} (same : skipBlank first = skipBlank second)
    (steps depth : Nat) : value? steps depth first = value? steps depth second := by
  cases steps with
  | zero =>
      rw [value?, value?]
  | succ steps =>
      rw [value?, value?, same]

/-- The text of a document that fits starts with a mark that is no blank and closes no
sequence. -/
theorem exists_pretty_eq {limit : Nat} {document : Document} (fits : document.Fits limit)
    (indent : Nat) :
    ∃ mark others, pretty indent document = mark :: others ∧
      (∀ rest, skipBlank (mark :: rest) = mark :: rest) ∧ mark ≠ ']' := by
  cases fits with
  | null =>
      exact ⟨'n', _, rfl, fun _ => rfl, by decide⟩
  | boolean _ value =>
      cases value with
      | false =>
          exact ⟨'f', _, rfl, fun _ => rfl, by decide⟩
      | true =>
          exact ⟨'t', _, rfl, fun _ => rfl, by decide⟩
  | text _ value =>
      exact ⟨'"', _, rfl, fun _ => rfl, by decide⟩
  | @sequence _ items each =>
      cases items <;> exact ⟨'[', _, rfl, fun _ => rfl, by decide⟩
  | @mapping _ entries each =>
      cases entries <;> exact ⟨'\x7b', _, rfl, fun _ => rfl, by decide⟩

/-! ## Values -/

/-- The reader of values, given enough steps, reads the text of a document as that
document and stops right behind it. -/
def ReadsBack (limit : Nat) (document : Document) : Prop :=
  ∀ indent steps rest, 3 * (pretty indent document).length ≤ steps →
    value? steps limit (pretty indent document ++ rest) = some (document, rest)

theorem items?_of_closing {input rest : List Char} (closing : skipBlank input = ']' :: rest)
    (steps depth : Nat) (first : Bool) :
    items? (steps + 1) depth first input = some ([], rest) := by
  unfold items?
  rw [closing]
  cases first <;> rfl

theorem items?_of_comma {input rest : List Char} (comma : skipBlank input = ',' :: rest)
    (steps depth : Nat) : items? (steps + 1) depth false input = item? steps depth rest := by
  conv_lhs => unfold items?
  rw [comma]
  rfl

theorem items?_of_mark {input others : List Char} {mark : Char}
    (start : skipBlank input = mark :: others) (notClosing : mark ≠ ']') (steps depth : Nat) :
    items? (steps + 1) depth true input = item? steps depth (mark :: others) := by
  conv_lhs => unfold items?
  rw [start]
  split
  · rename_i equal
    exact absurd (List.cons.inj equal).1 notClosing
  · contradiction
  · contradiction
  · rfl

theorem items?_first {limit indent : Nat} {item : Document} (fits : item.Fits limit)
    {items : List Document} {after rest : List Char} {steps : Nat}
    (value : value? steps limit (pretty indent item ++ after) = some (item, after))
    (later : items? steps limit false after = some (items, rest)) :
    items? (steps + 2) limit true (lineStart indent ++ (pretty indent item ++ after)) =
      some (item :: items, rest) := by
  obtain ⟨mark, others, written, noBlank, notClosing⟩ := exists_pretty_eq fits indent
  have start : skipBlank (lineStart indent ++ (pretty indent item ++ after)) =
      mark :: (others ++ after) := by
    rw [skipBlank_lineStart, written]
    exact noBlank _
  rw [items?_of_mark start notClosing, item?, ← List.cons_append, ← written, value]
  simp only [Option.bind_eq_bind, Option.bind_some, later, Option.pure_def]

theorem items?_prettyItems {limit : Nat} {items : List Document}
    (each : ∀ item ∈ items, ReadsBack limit item) (indent outer : Nat) (rest : List Char)
    {steps : Nat} (enough : 3 * (prettyItems indent items).length + 1 ≤ steps) :
    items? steps limit false
        (prettyItems indent items ++ (lineStart outer ++ ']' :: rest)) =
      some (items, rest) := by
  induction items generalizing steps with
  | nil =>
      obtain ⟨fewer, rfl⟩ : ∃ fewer, steps = fewer + 1 :=
        Nat.exists_eq_add_one.2 (by omega)
      rw [prettyItems, List.nil_append]
      apply items?_of_closing
      rw [skipBlank_lineStart]
      rfl
  | cons item items inductionHypothesis =>
      -- The comma and the item take a step each; the comma alone pays for three.
      obtain ⟨itemReads, itemsRead⟩ := List.forall_mem_cons.1 each
      rw [prettyItems] at enough ⊢
      simp only [List.length_append, List.length_cons] at enough
      obtain ⟨fewer, rfl⟩ : ∃ fewer, steps = fewer + 1 + 1 :=
        ⟨steps - 2, by omega⟩
      simp only [List.cons_append, List.append_assoc]
      rw [items?_of_comma rfl, item?, value?_congr (skipBlank_lineStart indent _),
        itemReads indent fewer _ (by omega)]
      simp only [Option.bind_eq_bind, Option.bind_some, Option.pure_def]
      rw [inductionHypothesis itemsRead (by omega), Option.bind_some]

theorem readsBack_sequence {limit : Nat} {items : List Document}
    (fits : ∀ item ∈ items, item.Fits limit) (each : ∀ item ∈ items, ReadsBack limit item) :
    ReadsBack (limit + 1) (.sequence items) := by
  intro indent steps rest enough
  have opening : ∀ others, skipBlank ('[' :: others) = '[' :: others := fun _ => rfl
  cases items with
  | nil =>
      obtain ⟨fewer, rfl⟩ : ∃ fewer, steps = fewer + 1 + 1 :=
        ⟨steps - 2, by simp only [pretty, List.length_cons] at enough; omega⟩
      rw [pretty, List.cons_append, value?, opening]
      simp only [List.singleton_append]
      rw [items?_of_closing rfl]
      rfl
  | cons item items =>
      obtain ⟨itemFits, -⟩ := List.forall_mem_cons.1 fits
      obtain ⟨itemReads, itemsRead⟩ := List.forall_mem_cons.1 each
      rw [pretty] at enough ⊢
      simp only [List.length_append, List.length_cons] at enough
      obtain ⟨fewer, rfl⟩ : ∃ fewer, steps = fewer + 1 + 1 + 1 :=
        ⟨steps - 3, by omega⟩
      have value := itemReads (indent + 1) fewer
        (prettyItems (indent + 1) items ++ (lineStart indent ++ ']' :: rest)) (by omega)
      have values := items?_prettyItems itemsRead (indent + 1) indent rest
        (show 3 * (prettyItems (indent + 1) items).length + 1 ≤ fewer by omega)
      simp only [List.cons_append, List.append_assoc, List.nil_append]
      rw [value?, opening]
      simp only [items?_first itemFits value values, Option.bind_eq_bind, Option.bind_some,
        Option.pure_def]

theorem entries?_of_closing {input rest : List Char}
    (closing : skipBlank input = '\x7d' :: rest) (steps depth : Nat) (first : Bool) :
    entries? (steps + 1) depth first input = some ([], rest) := by
  unfold entries?
  rw [closing]
  cases first <;> rfl

theorem entries?_of_comma {input rest : List Char} (comma : skipBlank input = ',' :: rest)
    (steps depth : Nat) : entries? (steps + 1) depth false input = entry? steps depth rest := by
  conv_lhs => unfold entries?
  rw [comma]
  rfl

theorem entries?_of_quote {input others : List Char} (start : skipBlank input = '"' :: others)
    (steps depth : Nat) :
    entries? (steps + 1) depth true input = entry? steps depth ('"' :: others) := by
  conv_lhs => unfold entries?
  rw [start]
  rfl

theorem skipBlank_quoted (key : String) (rest : List Char) :
    skipBlank (quoted key ++ rest) = quoted key ++ rest :=
  rfl

/-- An entry is read as far as the entries behind it are. -/
theorem entry?_prettyEntry {limit : Nat} (key : String) {document : Document}
    (reads : ReadsBack limit document) (indent : Nat) (blanks : List Char)
    {after rest : List Char}
    (leading : ∀ others, skipBlank (blanks ++ others) = skipBlank others)
    {entries : List (String × Document)} {steps : Nat}
    (enough : 3 * (pretty indent document).length ≤ steps)
    (later : entries? steps limit false after = some (entries, rest)) :
    entry? (steps + 1) limit (blanks ++ (prettyEntry indent (key, document) ++ after)) =
      some ((key, document) :: entries, rest) := by
  have colon : skipBlank (':' :: ' ' :: (pretty indent document ++ after)) =
      ':' :: ' ' :: (pretty indent document ++ after) := rfl
  have blank : skipBlank (' ' :: (pretty indent document ++ after)) =
      skipBlank (pretty indent document ++ after) := rfl
  rw [prettyEntry]
  simp only [List.append_assoc, List.cons_append, List.nil_append]
  rw [ entry?, leading, skipBlank_quoted, quotedText?_quoted]
  simp only [Option.bind_eq_bind, Option.bind_some, colon]
  rw [value?_congr blank, reads indent steps after enough]
  simp only [Option.bind_some, later, Option.pure_def]

theorem entries?_prettyEntries {limit : Nat} {entries : List (String × Document)}
    (each : ∀ entry ∈ entries, ReadsBack limit entry.2) (indent outer : Nat)
    (rest : List Char) {steps : Nat}
    (enough : 3 * (prettyEntries indent entries).length + 1 ≤ steps) :
    entries? steps limit false
        (prettyEntries indent entries ++ (lineStart outer ++ '\x7d' :: rest)) =
      some (entries, rest) := by
  induction entries generalizing steps with
  | nil =>
      obtain ⟨fewer, rfl⟩ : ∃ fewer, steps = fewer + 1 :=
        Nat.exists_eq_add_one.2 (by omega)
      rw [prettyEntries, List.nil_append]
      apply entries?_of_closing
      rw [skipBlank_lineStart]
      rfl
  | cons entry entries inductionHypothesis =>
      obtain ⟨entryReads, entriesRead⟩ := List.forall_mem_cons.1 each
      obtain ⟨key, document⟩ := entry
      rw [prettyEntries] at enough ⊢
      simp only [List.length_append, List.length_cons, prettyEntry] at enough
      obtain ⟨fewer, rfl⟩ : ∃ fewer, steps = fewer + 1 + 1 :=
        ⟨steps - 2, by omega⟩
      simp only [List.cons_append, List.append_assoc]
      rw [entries?_of_comma rfl]
      have later := inductionHypothesis entriesRead
        (show 3 * (prettyEntries indent entries).length + 1 ≤ fewer by omega)
      exact entry?_prettyEntry key entryReads indent _ (skipBlank_lineStart indent)
        (show 3 * (pretty indent document).length ≤ fewer by omega) later

theorem readsBack_mapping {limit : Nat} {entries : List (String × Document)}
    (each : ∀ entry ∈ entries, ReadsBack limit entry.2) :
    ReadsBack (limit + 1) (.mapping entries) := by
  intro indent steps rest enough
  have opening : ∀ others, skipBlank ('\x7b' :: others) = '\x7b' :: others := fun _ => rfl
  cases entries with
  | nil =>
      obtain ⟨fewer, rfl⟩ : ∃ fewer, steps = fewer + 1 + 1 :=
        ⟨steps - 2, by simp only [pretty, List.length_cons] at enough; omega⟩
      rw [pretty, List.cons_append, value?, opening]
      simp only [List.singleton_append]
      rw [entries?_of_closing rfl]
      rfl
  | cons entry entries =>
      obtain ⟨entryReads, entriesRead⟩ := List.forall_mem_cons.1 each
      obtain ⟨key, document⟩ := entry
      rw [pretty] at enough ⊢
      simp only [List.length_append, List.length_cons, prettyEntry] at enough
      obtain ⟨fewer, rfl⟩ : ∃ fewer, steps = fewer + 1 + 1 + 1 :=
        ⟨steps - 3, by omega⟩
      have values := entries?_prettyEntries entriesRead (indent + 1) indent rest
        (show 3 * (prettyEntries (indent + 1) entries).length + 1 ≤ fewer by omega)
      have entryRead := entry?_prettyEntry key entryReads (indent + 1) [] (fun _ => rfl)
        (show 3 * (pretty (indent + 1) document).length ≤ fewer by omega) values
      have start := skipBlank_lineStart (indent + 1) (prettyEntry (indent + 1) (key, document) ++
        (prettyEntries (indent + 1) entries ++ (lineStart indent ++ '\x7d' :: rest)))
      have read := (entries?_of_quote start (fewer + 1) limit).trans entryRead
      simp only [List.cons_append, List.append_assoc, List.nil_append]
      rw [value?, opening]
      simp only [read, Option.bind_eq_bind, Option.bind_some, Option.pure_def]

theorem exists_fewer_steps {limit : Nat} {document : Document} (fits : document.Fits limit)
    {indent steps : Nat} (enough : 3 * (pretty indent document).length ≤ steps) :
    ∃ fewer, steps = fewer + 1 := by
  obtain ⟨mark, others, written, -⟩ := exists_pretty_eq fits indent
  rw [written, List.length_cons] at enough
  exact ⟨steps - 1, by omega⟩

theorem readsBack_of_fits {limit : Nat} {document : Document} (fits : document.Fits limit) :
    ReadsBack limit document := by
  induction fits with
  | null =>
      intro indent steps rest enough
      obtain ⟨fewer, rfl⟩ := exists_fewer_steps (.null limit) enough
      rw [value?]
      rfl
  | boolean _ value =>
      intro indent steps rest enough
      obtain ⟨fewer, rfl⟩ := exists_fewer_steps (.boolean limit value) enough
      rw [value?]
      cases value <;> rfl
  | text _ value =>
      intro indent steps rest enough
      obtain ⟨fewer, rfl⟩ := exists_fewer_steps (.text limit value) enough
      have read := quotedText?_quoted value rest
      have start : quoted value ++ rest = '"' :: (quoted value ++ rest).tail := rfl
      rw [pretty, value?, skipBlank_quoted, start]
      rw [start] at read
      simp only [read, Option.bind_eq_bind, Option.bind_some, Option.pure_def]
  | sequence fits inductionHypothesis =>
      exact readsBack_sequence fits inductionHypothesis
  | mapping _ inductionHypothesis =>
      exact readsBack_mapping inductionHypothesis

/-- A document without numbers is read back from the text of the file that holds it. -/
theorem read?_fileText {document : Document} (fits : document.Fits depthLimit) :
    read? (fileText document) = some document := by
  have enough : 3 * (pretty 0 document).length ≤
      3 * (pretty 0 document ++ ['\n']).length + 3 := by
    rw [List.length_append]
    omega
  have value := readsBack_of_fits fits 0 _ ['\n'] enough
  have nothingLeft : (skipBlank ['\n']).isEmpty = true := by decide
  simp only [read?, fileText, String.toList_ofList, value, Option.bind_eq_bind,
    Option.bind_some, nothingLeft, if_true, Option.pure_def]

end Json

end AheadOfTime
