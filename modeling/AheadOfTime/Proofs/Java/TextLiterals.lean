import AheadOfTime.Proofs.Java.Lexical
import Mathlib.Tactic.SplitIfs

/-!
# Text literals read back

What is written for a character leaves every Unicode escape complete and every run of
backslashes even, so a text literal is read as one element that stands for its text,
whatever comes before it and after it.
-/

namespace AheadOfTime.Java

theorem not_surrogate_toNat (c : Char) :
    isHighSurrogate c.toNat = false ∧ isLowSurrogate c.toNat = false := by
  have valid : c.toNat < 0xD800 ∨ 0xDFFF < c.toNat ∧ c.toNat < 0x110000 := c.valid
  simp only [isHighSurrogate, isLowSurrogate, Bool.and_eq_false_iff, decide_eq_false_iff_not]
  omega

theorem decodeUnits?_codeUnits (c : Char) (rest : List Nat) :
    decodeUnits? (codeUnits c ++ rest) = (decodeUnits? rest).map (c :: ·) := by
  obtain ⟨notHigh, notLow⟩ := not_surrogate_toNat c
  unfold codeUnits
  split_ifs with small
  · cases rest with
    | nil =>
        simp [decodeUnits?, notHigh, notLow]
    | cons next rest =>
        simp [decodeUnits?, notHigh, notLow]
  · have valid : c.toNat < 0xD800 ∨ 0xDFFF < c.toNat ∧ c.toNat < 0x110000 := c.valid
    have high : isHighSurrogate (0xD800 + (c.toNat - 0x10000) / 0x400) = true := by
      simp only [isHighSurrogate, Bool.and_eq_true, decide_eq_true_eq]
      omega
    have low : isLowSurrogate (0xDC00 + (c.toNat - 0x10000) % 0x400) = true := by
      simp only [isLowSurrogate, Bool.and_eq_true, decide_eq_true_eq]
      omega
    have code :
        0x10000 + (0xD800 + (c.toNat - 0x10000) / 0x400 - 0xD800) * 0x400 +
            (0xDC00 + (c.toNat - 0x10000) % 0x400 - 0xDC00) =
          c.toNat := by
      omega
    rw [List.cons_append, List.singleton_append, decodeUnits?, high, low, code, Char.ofNat_toNat]
    rfl

/-- The code units of a text tell the text. -/
theorem decodeUnits?_encodeUnits (chars : List Char) :
    decodeUnits? (encodeUnits chars) = some chars := by
  induction chars with
  | nil =>
      rfl
  | cons c chars inductionHypothesis =>
      rw [encodeUnits, List.flatMap_cons, decodeUnits?_codeUnits, ← encodeUnits,
        inductionHypothesis]
      rfl

theorem codeUnits_ne_nil (c : Char) : codeUnits c ≠ [] := by
  unfold codeUnits
  split_ifs <;> exact List.cons_ne_nil _ _

theorem codeUnits_lt (c : Char) : ∀ unit ∈ codeUnits c, unit < 0x10000 := by
  have valid : c.toNat < 0xD800 ∨ 0xDFFF < c.toNat ∧ c.toNat < 0x110000 := c.valid
  intro unit member
  unfold codeUnits at member
  split_ifs at member
  · rw [List.mem_singleton] at member
    omega
  · simp only [List.mem_cons, List.not_mem_nil, or_false] at member
    omega

/-- A code unit that only an ASCII character has is the code of that character. -/
theorem eq_of_mem_codeUnits {c : Char} {unit : Nat} (member : unit ∈ codeUnits c)
    (ascii : unit < 0x80) : c.toNat = unit := by
  unfold codeUnits at member
  split_ifs at member
  · exact (List.mem_singleton.1 member).symm
  · simp only [List.mem_cons, List.not_mem_nil, or_false] at member
    omega

theorem codeUnits_of_ascii {c : Char} (ascii : c.toNat < 0x80) : codeUnits c = [c.toNat] :=
  if_pos (by omega)

theorem fourHex?_unitEscape {unit : Nat} (small : unit < 0x10000) :
    Json.fourHex? [hexDigit (unit / 0x1000 % 16), hexDigit (unit / 0x100 % 16),
      hexDigit (unit / 0x10 % 16), hexDigit (unit % 16)] = some (unit, []) := by
  have digit : ∀ value < 16, Json.hexValue? (hexDigit value) = some value := by
    decide
  have first := digit (unit / 0x1000 % 16) (by omega)
  have second := digit (unit / 0x100 % 16) (by omega)
  have third := digit (unit / 0x10 % 16) (by omega)
  have fourth := digit (unit % 16) (by omega)
  have code :
      ((unit / 0x1000 % 16 * 16 + unit / 0x100 % 16) * 16 + unit / 0x10 % 16) * 16 + unit % 16 =
        unit := by
    omega
  simp only [Json.fourHex?, first, second, third, fourth, Option.bind_eq_bind, Option.bind_some,
    code, Option.pure_def]

theorem hexDigit_ne_mark {value : Nat} (small : value < 16) : hexDigit value ≠ 'u' := by
  revert value
  decide

theorem translate?_unitEscape {unit : Nat} (small : unit < 0x10000) (rest : List Char) :
    translate? .even (unitEscape unit ++ rest) =
      (translate? .even rest).map ([⟨unit, true⟩] ++ ·) := by
  have unmarked : hexDigit (unit / 0x1000 % 16) ≠ 'u' := hexDigit_ne_mark (by omega)
  simp only [unitEscape, List.cons_append, List.nil_append]
  rw [translate?, translate?, fourHex?_unitEscape small]
  exact unmarked

theorem translate?_unitEscapes {units : List Nat} (small : ∀ unit ∈ units, unit < 0x10000)
    (rest : List Char) :
    translate? .even (units.flatMap unitEscape ++ rest) =
      (translate? .even rest).map (units.map (⟨·, true⟩) ++ ·) := by
  induction units with
  | nil =>
      simp
  | cons unit units inductionHypothesis =>
      obtain ⟨firstSmall, othersSmall⟩ := List.forall_mem_cons.1 small
      rw [List.flatMap_cons, List.append_assoc, translate?_unitEscape firstSmall,
        inductionHypothesis othersSmall, Option.map_map]
      rfl

theorem translate?_char {c : Char} (plain : c ≠ '\\') (rest : List Char) :
    translate? .even (c :: rest) =
      (translate? .even rest).map ((codeUnits c).map .raw ++ ·) := by
  rw [translate?]
  · exact fun _ isEscape => absurd isEscape plain
  · exact plain

theorem translate?_chars {chars : List Char} (plain : '\\' ∉ chars) (rest : List Char) :
    translate? .even (chars ++ rest) =
      (translate? .even rest).map ((encodeUnits chars).map .raw ++ ·) := by
  induction chars with
  | nil =>
      simp [encodeUnits]
  | cons c chars inductionHypothesis =>
      rw [List.mem_cons, not_or] at plain
      rw [List.cons_append, translate?_char (Ne.symm plain.1), inductionHypothesis plain.2,
        Option.map_map]
      simp [encodeUnits, Function.comp_def]

theorem translate?_backslash {c : Char} (unmarked : c ≠ 'u') (rest : List Char) :
    translate? .even ('\\' :: c :: rest) =
      (translate? .even rest).map ((.raw '\\'.toNat :: (codeUnits c).map .raw) ++ ·) := by
  rw [translate?, translate?, Option.map_map]
  · rfl
  · intro rest' isMark
    exact unmarked (List.cons.inj isMark).1

theorem isLineEnd_eq_false {unit : Nat} (noFeed : unit ≠ '\n'.toNat)
    (noCarriage : unit ≠ '\r'.toNat) : isLineEnd unit = false := by
  rw [isLineEnd, Bool.or_eq_false_iff, beq_eq_false_iff_ne, beq_eq_false_iff_ne]
  exact ⟨noFeed, noCarriage⟩

/-- A code unit that neither ends a text nor begins an escape in it. -/
def IsInner (unit : Nat) : Prop :=
  unit ≠ '"'.toNat ∧ unit ≠ '\\'.toNat ∧ isLineEnd unit = false

def IsPrintable (c : Char) : Prop :=
  0x20 ≤ c.toNat ∧ c.toNat < 0x7F

instance (c : Char) : Decidable (IsPrintable c) :=
  inferInstanceAs (Decidable (_ ∧ _))

/-- A character is written as an escape of its own, as itself, or as Unicode escapes. -/
theorem literalChar_cases (c : Char) :
    (∃ mark : Char, IsPrintable mark ∧ mark ≠ 'u' ∧ codeUnits mark = [mark.toNat] ∧
        codeUnits c = [c.toNat] ∧ escapeValue? mark.toNat = some c.toNat ∧
        literalChar c = ['\\', mark]) ∨
      (IsPrintable c ∧ codeUnits c = [c.toNat] ∧ IsInner c.toNat ∧ literalChar c = [c]) ∨
      ((∀ unit ∈ codeUnits c, IsInner unit) ∧
        literalChar c = (codeUnits c).flatMap unitEscape) := by
  have inner (noQuote : c ≠ '"') (noBackslash : c ≠ '\\') (noFeed : c ≠ '\n')
      (noCarriage : c ≠ '\r') : ∀ unit ∈ codeUnits c, IsInner unit := by
    intro unit member
    have unlike : ∀ other : Char, other.toNat < 0x80 → c ≠ other → unit ≠ other.toNat := by
      rintro other ascii different rfl
      exact different (Char.toNat_inj.1 (eq_of_mem_codeUnits member ascii))
    exact ⟨unlike '"' (by decide) noQuote, unlike '\\' (by decide) noBackslash,
      isLineEnd_eq_false (unlike '\n' (by decide) noFeed)
        (unlike '\r' (by decide) noCarriage)⟩
  by_cases quote : c = '"'
  · subst quote
    exact .inl ⟨'"', by decide, by decide, rfl, rfl, rfl, rfl⟩
  by_cases backslash : c = '\\'
  · subst backslash
    exact .inl ⟨'\\', by decide, by decide, rfl, rfl, rfl, rfl⟩
  by_cases feed : c = '\n'
  · subst feed
    exact .inl ⟨'n', by decide, by decide, rfl, rfl, rfl, rfl⟩
  by_cases carriage : c = '\r'
  · subst carriage
    exact .inl ⟨'r', by decide, by decide, rfl, rfl, rfl, rfl⟩
  by_cases tab : c = '\t'
  · subst tab
    exact .inl ⟨'t', by decide, by decide, rfl, rfl, rfl, rfl⟩
  by_cases backspace : c = '\x08'
  · subst backspace
    exact .inl ⟨'b', by decide, by decide, rfl, rfl, rfl, rfl⟩
  by_cases formFeed : c = '\x0c'
  · subst formFeed
    exact .inl ⟨'f', by decide, by decide, rfl, rfl, rfl, rfl⟩
  have innerUnits := inner quote backslash feed carriage
  rw [literalChar, if_neg quote, if_neg backslash, if_neg feed, if_neg carriage, if_neg tab,
    if_neg backspace, if_neg formFeed]
  by_cases printable : 0x20 ≤ c.toNat ∧ c.toNat < 0x7F
  · have single : codeUnits c = [c.toNat] := codeUnits_of_ascii (by omega)
    have itself : c.toNat ∈ codeUnits c := single ▸ List.mem_singleton_self _
    rw [if_pos printable]
    exact .inr (.inl ⟨printable, single, innerUnits _ itself, rfl⟩)
  · rw [if_neg printable]
    exact .inr (.inr ⟨innerUnits, rfl⟩)

theorem isPrintable_hexDigit {value : Nat} (small : value < 16) :
    IsPrintable (hexDigit value) := by
  revert value
  decide

theorem isPrintable_literalChar (c : Char) : ∀ written ∈ literalChar c, IsPrintable written := by
  rcases literalChar_cases c with
    ⟨mark, printable, -, -, -, -, written⟩ | ⟨printable, -, -, written⟩ | ⟨-, written⟩
  · rw [written]
    exact List.forall_mem_cons.2 ⟨by decide, List.forall_mem_singleton.2 printable⟩
  · rw [written]
    exact List.forall_mem_singleton.2 printable
  · rw [written]
    intro escaped member
    obtain ⟨unit, -, inEscape⟩ := List.mem_flatMap.1 member
    have digits : ∀ part : Nat, IsPrintable (hexDigit (part % 16)) := fun part =>
      isPrintable_hexDigit (Nat.mod_lt part (by decide))
    simp only [unitEscape, List.mem_cons, List.not_mem_nil, or_false] at inEscape
    rcases inEscape with rfl | rfl | rfl | rfl | rfl | rfl
    · decide
    · decide
    · exact digits _
    · exact digits _
    · exact digits _
    · exact digits _

/-- A text literal is printable ASCII between two quotes. -/
theorem isPrintable_stringLiteral (text : String) :
    (stringLiteral text).toList = '"' :: (text.toList.flatMap literalChar ++ ['"']) ∧
      ∀ c ∈ (stringLiteral text).toList, IsPrintable c := by
  have parts : (stringLiteral text).toList =
      '"' :: (text.toList.flatMap literalChar ++ ['"']) := by
    rw [stringLiteral, String.toList_ofList, List.cons_append]
  refine ⟨parts, ?_⟩
  rw [parts]
  refine List.forall_mem_cons.2
    ⟨by decide, List.forall_mem_append.2 ⟨?_, List.forall_mem_singleton.2 (by decide)⟩⟩
  intro c member
  obtain ⟨source, -, inWritten⟩ := List.mem_flatMap.1 member
  exact isPrintable_literalChar source c inWritten

/-! ## Reading a text -/

namespace Mode

theorem elements?_of_next {mode after : Mode} {unit : Nat} {completed : List Element}
    (goesOn : mode.next unit = some (completed, after)) (rest : List Nat) :
    elements? mode (unit :: rest) = (elements? after rest).map (completed ++ ·) := by
  rw [elements?, goesOn]

theorem elements?_of_next_nil {mode after : Mode} {unit : Nat}
    (goesOn : mode.next unit = some ([], after)) (rest : List Nat) :
    elements? mode (unit :: rest) = elements? after rest := by
  rw [elements?_of_next goesOn]
  exact Option.map_id'

theorem elements?_inner {units : List Nat} (inner : ∀ unit ∈ units, IsInner unit)
    (value rest : List Nat) :
    elements? (text value) (units ++ rest) = elements? (text (value ++ units)) rest := by
  induction units generalizing value with
  | nil =>
      simp
  | cons unit units inductionHypothesis =>
      obtain ⟨⟨noQuote, noBackslash, noLineEnd⟩, others⟩ := List.forall_mem_cons.1 inner
      have goesOn : next (text value) unit = some ([], text (value ++ [unit])) := by
        rw [next, inText, if_neg noQuote, if_neg noBackslash, noLineEnd]
        rfl
      rw [List.cons_append, elements?_of_next_nil goesOn, inductionHypothesis others,
        List.append_assoc]
      rfl

theorem elements?_escape {unit escaped : Nat} (stands : escapeValue? unit = some escaped)
    (value rest : List Nat) :
    elements? (text value) ('\\'.toNat :: unit :: rest) =
      elements? (text (value ++ [escaped])) rest := by
  have start : next (text value) '\\'.toNat = some ([], escape value) := rfl
  have done : next (escape value) unit = some ([], text (value ++ [escaped])) := by
    rw [next, stands]
    rfl
  rw [elements?_of_next_nil start, elements?_of_next_nil done]

/-- Behind the quote that opens a text, anything but a quote is read as in the text. -/
theorem elements?_opened {units : List Nat} (apart : units.head? ≠ some '"'.toNat) :
    elements? opened units = elements? (text []) units := by
  cases units with
  | nil =>
      rfl
  | cons unit rest =>
      have noQuote : unit ≠ '"'.toNat := fun same => apart (congrArg some same)
      rw [elements?, elements?, next, next, if_neg noQuote]

/-- Behind two quotes, anything but a third one is read as in code. -/
theorem elements?_closed {rest : List Nat} (apart : rest.head? ≠ some '"'.toNat) :
    elements? closed rest = (elements? code rest).map ([.text []] ++ ·) := by
  cases rest with
  | nil =>
      rfl
  | cons unit rest =>
      have noQuote : unit ≠ '"'.toNat := fun same => apart (congrArg some same)
      rw [elements?, elements?, next, next, if_neg noQuote]
      cases inCode unit with
      | none =>
          rfl
      | some step =>
          simp [Function.comp_def]

end Mode

/-- Whether characters between quotes, with their Unicode escapes replaced by code units,
stand for a value. -/
structure Encodes (written : List Char) (units : List InputUnit) (value : List Nat) : Prop where
  translated : ∀ rest,
    translate? .even (written ++ rest) = (translate? .even rest).map (units ++ ·)
  harmless : ∀ unit ∈ units, unit.escaped = true → IsInner unit.code
  apart : (units.map InputUnit.code).head? ≠ some '"'.toNat
  filled : units = [] → value = []
  read : ∀ before rest,
    Mode.elements? (.text before) (units.map InputUnit.code ++ rest) =
      Mode.elements? (.text (before ++ value)) rest

namespace Encodes

theorem nil : Encodes [] [] [] where
  translated rest := by simp
  harmless := List.forall_mem_nil _
  apart := by simp
  filled _ := rfl
  read before rest := by simp

theorem append {first second : List Char} {firstUnits secondUnits : List InputUnit}
    {firstValue secondValue : List Nat} (firstEncodes : Encodes first firstUnits firstValue)
    (secondEncodes : Encodes second secondUnits secondValue) :
    Encodes (first ++ second) (firstUnits ++ secondUnits) (firstValue ++ secondValue) where
  translated rest := by
    rw [List.append_assoc, firstEncodes.translated, secondEncodes.translated, Option.map_map]
    simp [Function.comp_def]
  harmless := List.forall_mem_append.2 ⟨firstEncodes.harmless, secondEncodes.harmless⟩
  apart := by
    have begins := firstEncodes.apart
    cases firstUnits with
    | nil =>
        exact secondEncodes.apart
    | cons unit units =>
        exact begins
  filled none := by
    obtain ⟨firstNone, secondNone⟩ := List.append_eq_nil_iff.1 none
    rw [firstEncodes.filled firstNone, secondEncodes.filled secondNone]
    rfl
  read before rest := by
    rw [List.map_append, List.append_assoc, firstEncodes.read, secondEncodes.read,
      List.append_assoc]

theorem literalChar (c : Char) : ∃ units, Encodes (literalChar c) units (codeUnits c) := by
  rcases literalChar_cases c with
    ⟨mark, -, unmarked, markUnit, unit, stands, written⟩ | ⟨-, unit, inner, written⟩ |
      ⟨inner, written⟩
  · refine ⟨[.raw '\\'.toNat, .raw mark.toNat], ?_⟩
    rw [written, unit]
    refine ⟨fun rest => ?_, by simp [InputUnit.raw], ?_, by simp, fun before rest => ?_⟩
    · rw [List.cons_append, List.singleton_append, translate?_backslash unmarked, markUnit]
      rfl
    · exact fun same => absurd (Option.some.inj same) (by decide)
    · exact Mode.elements?_escape stands before rest
  · refine ⟨[.raw c.toNat], ?_⟩
    rw [written, unit]
    have noBackslash : c ≠ '\\' := by
      rintro rfl
      exact inner.2.1 rfl
    refine ⟨fun rest => ?_, by simp [InputUnit.raw], ?_, by simp, fun before rest => ?_⟩
    · rw [List.singleton_append, translate?_char noBackslash, unit]
      rfl
    · exact fun same => inner.1 (Option.some.inj same)
    · exact Mode.elements?_inner (List.forall_mem_singleton.2 inner) before rest
  · refine ⟨(codeUnits c).map (⟨·, true⟩), ?_⟩
    have codes : ((codeUnits c).map fun unit => (⟨unit, true⟩ : InputUnit)).map InputUnit.code =
        codeUnits c := by
      rw [List.map_map]
      exact List.map_id _
    rw [written]
    refine ⟨translate?_unitEscapes (codeUnits_lt c), ?_, ?_, List.map_eq_nil_iff.1, ?_⟩
    · rintro _ member -
      obtain ⟨unit, isUnit, rfl⟩ := List.mem_map.1 member
      exact inner unit isUnit
    · rw [codes]
      intro begins
      exact (inner _ (List.mem_of_head? begins)).1 rfl
    · intro before rest
      rw [codes]
      exact Mode.elements?_inner inner before rest

theorem literalChars (chars : List Char) :
    ∃ units, Encodes (chars.flatMap Java.literalChar) units (encodeUnits chars) := by
  induction chars with
  | nil =>
      exact ⟨[], nil⟩
  | cons c chars inductionHypothesis =>
      obtain ⟨first, firstEncodes⟩ := literalChar c
      obtain ⟨others, othersEncode⟩ := inductionHypothesis
      exact ⟨first ++ others, firstEncodes.append othersEncode⟩

end Encodes

/-- Source that is read as some elements, as long as what comes after it is allowed. -/
def ReadsBefore (allowed : List Nat → Prop) (source : List Char) (elements : List Element) :
    Prop :=
  ∃ units : List InputUnit,
    (∀ rest, translate? .even (source ++ rest) = (translate? .even rest).map (units ++ ·)) ∧
      ∀ rest, allowed rest →
        Mode.elements? .code (units.map InputUnit.code ++ rest) =
          (Mode.elements? .code rest).map (elements ++ ·)

/-- Source that is read as some elements, whatever comes after it. -/
def Reads (source : List Char) (elements : List Element) : Prop :=
  ReadsBefore (fun _ => True) source elements

/-- Source that is read as some elements, unless a quote comes after it. -/
def ReadsApart (source : List Char) (elements : List Element) : Prop :=
  ReadsBefore (fun rest => rest.head? ≠ some '"'.toNat) source elements

theorem Reads.apart {source : List Char} {elements : List Element}
    (reads : Reads source elements) : ReadsApart source elements := by
  obtain ⟨units, translated, read⟩ := reads
  exact ⟨units, translated, fun rest _ => read rest trivial⟩

theorem readSource?_of_readsApart {source : List Char} {elements : List Element}
    (reads : ReadsApart source elements) : readSource? source = some elements := by
  obtain ⟨units, translated, read⟩ := reads
  have whole := translated []
  have all := read [] (by simp)
  rw [List.append_nil] at whole all
  rw [readSource?, whole]
  simpa [translate?, Mode.elements?, Mode.finish] using all

/-- The code units of a text literal, in which no Unicode escape stands for a quote, a
backslash or a line end. -/
theorem exists_units_stringLiteral (text : String) :
    ∃ inner, Encodes (text.toList.flatMap literalChar) inner (encodeUnits text.toList) ∧
      ∀ rest, translate? .even ((stringLiteral text).toList ++ rest) =
        (translate? .even rest).map
          ((.raw '"'.toNat :: (inner ++ [.raw '"'.toNat])) ++ ·) := by
  obtain ⟨inner, encodes⟩ := Encodes.literalChars text.toList
  have quote : codeUnits '"' = ['"'.toNat] := rfl
  refine ⟨inner, encodes, fun rest => ?_⟩
  rw [(isPrintable_stringLiteral text).1, List.cons_append,
    translate?_char (by decide), List.append_assoc, List.singleton_append,
    encodes.translated, translate?_char (by decide), quote, Option.map_map, Option.map_map]
  simp [Function.comp_def]

/-- A text literal is one element, which stands for its text, unless a quote follows it. -/
theorem readsApart_stringLiteral (text : String) :
    ReadsApart (stringLiteral text).toList [.text (encodeUnits text.toList)] := by
  obtain ⟨inner, encodes, translated⟩ := exists_units_stringLiteral text
  refine ⟨_, translated, fun rest apart => ?_⟩
  rw [List.map_cons, List.map_append, List.cons_append, List.append_assoc]
  refine (Mode.elements?_of_next_nil rfl _).trans ?_
  cases inner with
  | nil =>
      rw [encodes.filled rfl]
      exact (Mode.elements?_of_next_nil rfl rest).trans (Mode.elements?_closed apart)
  | cons unit units =>
      rw [Mode.elements?_opened (by exact encodes.apart), encodes.read]
      exact Mode.elements?_of_next rfl rest

end AheadOfTime.Java
