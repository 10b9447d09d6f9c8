import AheadOfTime.Proofs.Identifier
import AheadOfTime.Proofs.Java.TextLiterals

/-!
# The tokens of Java

Source is divided into words, texts and marks, each as long as it can be.  The reader refuses
what an initialized variable has no use for: comments, and operators of more than one character.
Where it does not refuse, it divides source as Java does, except that a qualified name is one
word.
-/

namespace AheadOfTime.Java

/-- A token: a name, a keyword or a number; a text literal with its value; an operator or a
separator. -/
inductive Token where
  | word (units : List Nat)
  | text (value : List Nat)
  | mark (unit : Nat)
  deriving DecidableEq

def isBlankUnit (unit : Nat) : Bool :=
  [' ', '\t', '\n', '\r', '\x0c'].any fun c => unit == c.toNat

/-- A code unit that names, keywords and numbers have, and the point in them. -/
def isWordUnit (unit : Nat) : Bool :=
  0x80 ≤ unit || (Char.ofNat unit).isAlphanum ||
    ['_', '$', '.'].any fun c => unit == c.toNat

def isSeparator (unit : Nat) : Bool :=
  ['(', ')', ';'].any fun c => unit == c.toNat

def isOperator (unit : Nat) : Bool :=
  ['=', '<', '>', '!', '~', '?', ':', '&', '|', '+', '-', '*', '/', '^', '%'].any fun c =>
    unit == c.toNat

def isDigitUnit (unit : Nat) : Bool :=
  (Char.ofNat unit).isDigit

/-- Whether the mark of a power of ten is last in a number. -/
def endsInExponentMark (units : List Nat) : Bool :=
  units.dropLast.any isDigitUnit &&
    units.dropLast.all (fun unit => isDigitUnit unit || unit == '.'.toNat) &&
    units.getLast?.any fun last => last == 'e'.toNat || last == 'E'.toNat

/-- Whether a word goes on with a code unit: a sign goes on with a number behind the mark of its
power of ten. -/
def continues (units : List Nat) (unit : Nat) : Bool :=
  isWordUnit unit ||
    (unit == '+'.toNat || unit == '-'.toNat) && endsInExponentMark units

/-- Where the division of source stands: between tokens, in a word, after an operator, in a
text, or after the quote that closes it. -/
inductive Lexing where
  | between
  | word (units : List Nat)
  | operator (unit : Nat)
  | quoted (mode : Mode)
  | closed (value : List Nat)
  deriving DecidableEq

namespace Lexing

/-- The tokens that a code unit between tokens completes, and what comes after it. -/
def start (unit : Nat) : Option (List Token × Lexing) :=
  if isBlankUnit unit then some ([], between)
  else if unit = '"'.toNat then some ([], quoted (.text []))
  else if isWordUnit unit then some ([], word [unit])
  else if isSeparator unit then some ([.mark unit], between)
  else if isOperator unit then some ([], operator unit)
  else none

def complete (token : Token) (unit : Nat) : Option (List Token × Lexing) :=
  (start unit).map fun (tokens, after) => (token :: tokens, after)

def next : Lexing → Nat → Option (List Token × Lexing)
  | between, unit => start unit
  | word units, unit =>
      if continues units unit then some ([], word (units ++ [unit]))
      else complete (.word units) unit
  | operator mark, unit => if isOperator unit then none else complete (.mark mark) unit
  | quoted mode, unit =>
      match mode.next unit with
      | none => none
      | some ([.text value], _) => some ([], closed value)
      | some (_, after) => some ([], quoted after)
  | closed value, unit => if unit = '"'.toNat then none else complete (.text value) unit

def finish : Lexing → Option (List Token)
  | between => some []
  | word units => some [.word units]
  | operator mark => some [.mark mark]
  | quoted _ => none
  | closed value => some [.text value]

def tokens? : Lexing → List Nat → Option (List Token)
  | lexing, [] => lexing.finish
  | lexing, unit :: rest =>
      match lexing.next unit with
      | none => none
      | some (completed, after) => (tokens? after rest).map (completed ++ ·)

end Lexing

def readTokens? (source : List Char) : Option (List Token) :=
  (translate? .even source).bind fun units => Lexing.between.tokens? (units.map InputUnit.code)

/-- What is read before what is read before the rest. -/
theorem map_append_map {α : Type} (first second : List α) (rest : Option (List α)) :
    (rest.map (second ++ ·)).map (first ++ ·) = rest.map (first ++ second ++ ·) := by
  have assoc : (first ++ ·) ∘ (second ++ ·) = (first ++ second ++ ·) :=
    funext fun later => (List.append_assoc first second later).symm
  rw [Option.map_map, assoc]

namespace Lexing

theorem tokens?_of_next {lexing after : Lexing} {unit : Nat} {completed : List Token}
    (goesOn : lexing.next unit = some (completed, after)) (rest : List Nat) :
    tokens? lexing (unit :: rest) = (tokens? after rest).map (completed ++ ·) := by
  rw [tokens?, goesOn]

theorem tokens?_of_next_nil {lexing after : Lexing} {unit : Nat}
    (goesOn : lexing.next unit = some ([], after)) (rest : List Nat) :
    tokens? lexing (unit :: rest) = tokens? after rest := by
  rw [tokens?_of_next goesOn]
  exact Option.map_id'

/-- A token that ends before a code unit is read before what is read from there on. -/
theorem tokens?_complete {lexing : Lexing} {token : Token} {unit : Nat}
    (ends : lexing.next unit = complete token unit) (rest : List Nat) :
    tokens? lexing (unit :: rest) = (tokens? between (unit :: rest)).map ([token] ++ ·) := by
  rw [tokens?, tokens?, ends, complete, next]
  cases start unit with
  | none =>
      rfl
  | some step =>
      simp [Function.comp_def]

theorem tokens?_word {units : List Nat} (each : ∀ unit ∈ units, isWordUnit unit = true)
    (before rest : List Nat) :
    tokens? (word before) (units ++ rest) = tokens? (word (before ++ units)) rest := by
  induction units generalizing before with
  | nil =>
      simp
  | cons unit units inductionHypothesis =>
      obtain ⟨here, others⟩ := List.forall_mem_cons.1 each
      have goesOn : next (word before) unit = some ([], word (before ++ [unit])) := by
        rw [next, continues, here]
        rfl
      rw [List.cons_append, tokens?_of_next_nil goesOn, inductionHypothesis others,
        List.append_assoc]
      rfl

theorem tokens?_inner {units : List Nat} (inner : ∀ unit ∈ units, IsInner unit)
    (value rest : List Nat) :
    tokens? (quoted (.text value)) (units ++ rest) =
      tokens? (quoted (.text (value ++ units))) rest := by
  induction units generalizing value with
  | nil =>
      simp
  | cons unit units inductionHypothesis =>
      obtain ⟨⟨noQuote, noBackslash, noLineEnd⟩, others⟩ := List.forall_mem_cons.1 inner
      have goesOn : next (quoted (.text value)) unit =
          some ([], quoted (.text (value ++ [unit]))) := by
        rw [next, Mode.next, Mode.inText, if_neg noQuote, if_neg noBackslash, noLineEnd]
        rfl
      rw [List.cons_append, tokens?_of_next_nil goesOn, inductionHypothesis others,
        List.append_assoc]
      rfl

theorem tokens?_escape {unit escaped : Nat} (stands : escapeValue? unit = some escaped)
    (value rest : List Nat) :
    tokens? (quoted (.text value)) ('\\'.toNat :: unit :: rest) =
      tokens? (quoted (.text (value ++ [escaped]))) rest := by
  have opened : next (quoted (.text value)) '\\'.toNat = some ([], quoted (.escape value)) := rfl
  have done : next (quoted (.escape value)) unit =
      some ([], quoted (.text (value ++ [escaped]))) := by
    rw [next, Mode.next, stands]
    rfl
  rw [tokens?_of_next_nil opened, tokens?_of_next_nil done]

/-- What is written for a character is read as its code units. -/
theorem tokens?_literalChar (c : Char) :
    ∃ units : List InputUnit,
      (∀ rest, translate? .even (literalChar c ++ rest) =
        (translate? .even rest).map (units ++ ·)) ∧
      ∀ value rest, tokens? (quoted (.text value)) (units.map InputUnit.code ++ rest) =
        tokens? (quoted (.text (value ++ codeUnits c))) rest := by
  rcases literalChar_cases c with
    ⟨mark, -, unmarked, markUnit, unit, stands, written⟩ | ⟨-, unit, inner, written⟩ |
      ⟨inner, written⟩
  · refine ⟨[.raw '\\'.toNat, .raw mark.toNat], fun rest => ?_, fun value rest => ?_⟩
    · rw [written, List.cons_append, List.singleton_append, translate?_backslash unmarked, markUnit]
      rfl
    · rw [unit]
      exact tokens?_escape stands value rest
  · refine ⟨[.raw c.toNat], fun rest => ?_, fun value rest => ?_⟩
    · have noBackslash : c ≠ '\\' := by
        rintro rfl
        exact inner.2.1 rfl
      rw [written, List.singleton_append, translate?_char noBackslash, unit]
      rfl
    · rw [unit]
      exact tokens?_inner (List.forall_mem_singleton.2 inner) value rest
  · refine ⟨(codeUnits c).map (⟨·, true⟩), fun rest => ?_, fun value rest => ?_⟩
    · rw [written, translate?_unitEscapes (codeUnits_lt c)]
    · rw [List.map_map]
      change tokens? _ ((codeUnits c).map id ++ rest) = _
      rw [List.map_id]
      exact tokens?_inner inner value rest

theorem tokens?_literalChars (chars : List Char) :
    ∃ units : List InputUnit,
      (∀ rest, translate? .even (chars.flatMap literalChar ++ rest) =
        (translate? .even rest).map (units ++ ·)) ∧
      ∀ value rest, tokens? (quoted (.text value)) (units.map InputUnit.code ++ rest) =
        tokens? (quoted (.text (value ++ encodeUnits chars))) rest := by
  induction chars with
  | nil =>
      exact ⟨[], by simp, by simp [encodeUnits]⟩
  | cons c chars inductionHypothesis =>
      obtain ⟨first, firstTranslated, firstRead⟩ := tokens?_literalChar c
      obtain ⟨others, othersTranslated, othersRead⟩ := inductionHypothesis
      refine ⟨first ++ others, fun rest => ?_, fun value rest => ?_⟩
      · rw [List.flatMap_cons, List.append_assoc, firstTranslated, othersTranslated,
          map_append_map]
      · rw [List.map_append, List.append_assoc, firstRead, othersRead, List.append_assoc]
        rfl

end Lexing

theorem digit_table :
    ∀ code < 0x80, (Char.ofNat code).isDigit = true →
      isWordUnit code = true ∧ isOperator code = false ∧ isDigitUnit code = true := by
  decide

theorem toNat_lt_of_isDigit {c : Char} (digit : c.isDigit = true) : c.toNat < 0x80 := by
  have bounds := toNat_of_isDigit digit
  omega

theorem of_isDigit {c : Char} (digit : c.isDigit = true) :
    isWordUnit c.toNat = true ∧ isOperator c.toNat = false ∧ isDigitUnit c.toNat = true := by
  refine digit_table c.toNat (toNat_lt_of_isDigit digit) ?_
  rwa [Char.ofNat_toNat]

theorem encodeUnits_of_ascii {chars : List Char} (ascii : ∀ c ∈ chars, c.toNat < 0x80) :
    encodeUnits chars = chars.map Char.toNat := by
  induction chars with
  | nil =>
      rfl
  | cons c chars inductionHypothesis =>
      obtain ⟨here, later⟩ := List.forall_mem_cons.1 ascii
      rw [encodeUnits, List.flatMap_cons, codeUnits_of_ascii here, List.map_cons, ← encodeUnits,
        inductionHypothesis later]
      rfl

/-! ## Sources in a row -/

/-- Whether what comes after a token cannot belong to it: nothing, a blank or a separator. -/
def Ends (rest : List Nat) : Prop :=
  ∀ unit ∈ rest.head?, isBlankUnit unit = true ∨ isSeparator unit = true

/-- Source that is read as some tokens, if what comes after it cannot belong to the last of
them. -/
def Tokenizes (source : List Char) (tokens : List Token) : Prop :=
  ∃ units : List InputUnit,
    (∀ rest, translate? .even (source ++ rest) = (translate? .even rest).map (units ++ ·)) ∧
      ∀ rest, Ends rest →
        Lexing.between.tokens? (units.map InputUnit.code ++ rest) =
          (Lexing.between.tokens? rest).map (tokens ++ ·)

theorem ends_table :
    ∀ unit ∈ ([' ', '\t', '\n', '\r', '\x0c'] ++ ['(', ')', ';']).map Char.toNat,
      isWordUnit unit = false ∧ (unit == '+'.toNat || unit == '-'.toNat) = false ∧
        isOperator unit = false ∧ unit ≠ '"'.toNat := by
  decide

theorem of_isEnd {unit : Nat} (isEnd : isBlankUnit unit = true ∨ isSeparator unit = true) :
    isWordUnit unit = false ∧ (unit == '+'.toNat || unit == '-'.toNat) = false ∧
      isOperator unit = false ∧ unit ≠ '"'.toNat := by
  refine ends_table unit (List.mem_map.2 ?_)
  rcases isEnd with blank | separator
  · obtain ⟨c, member, same⟩ := List.any_eq_true.1 blank
    exact ⟨c, List.mem_append_left _ member, (beq_iff_eq.1 same).symm⟩
  · obtain ⟨c, member, same⟩ := List.any_eq_true.1 separator
    exact ⟨c, List.mem_append_right _ member, (beq_iff_eq.1 same).symm⟩

namespace Lexing

/-- A token ends before what cannot belong to it. -/
theorem tokens?_of_ends {lexing : Lexing} {token : Token} (last : lexing.finish = some [token])
    (ends : ∀ unit, isBlankUnit unit = true ∨ isSeparator unit = true →
      lexing.next unit = complete token unit)
    {rest : List Nat} (restEnds : Ends rest) :
    tokens? lexing rest = (tokens? between rest).map ([token] ++ ·) := by
  cases rest with
  | nil =>
      rw [tokens?, last]
      rfl
  | cons unit rest =>
      exact tokens?_complete (ends unit (restEnds unit rfl)) rest

theorem tokens?_word_ends (units : List Nat) {rest : List Nat} (restEnds : Ends rest) :
    tokens? (word units) rest = (tokens? between rest).map ([.word units] ++ ·) := by
  refine tokens?_of_ends rfl (fun unit isEnd => ?_) restEnds
  obtain ⟨noWord, noSign, -⟩ := of_isEnd isEnd
  rw [next, continues, noWord, noSign]
  rfl

theorem tokens?_closed_ends (value : List Nat) {rest : List Nat} (restEnds : Ends rest) :
    tokens? (closed value) rest = (tokens? between rest).map ([.text value] ++ ·) := by
  refine tokens?_of_ends rfl (fun unit isEnd => ?_) restEnds
  obtain ⟨-, -, -, noQuote⟩ := of_isEnd isEnd
  rw [next, if_neg noQuote]

/-- Where a word begins. -/
theorem next_between_word {unit : Nat} (isWord : isWordUnit unit = true) :
    next between unit = some ([], word [unit]) := by
  have noBlank : isBlankUnit unit = false := by
    rw [← Bool.not_eq_true]
    intro blank
    rw [(of_isEnd (.inl blank)).1] at isWord
    cases isWord
  have noQuote : unit ≠ '"'.toNat := by
    rintro rfl
    cases isWord
  rw [next, start, noBlank, if_neg Bool.false_ne_true, if_neg noQuote, if_pos isWord]

theorem tokens?_between_word {units : List Nat} (nonempty : units ≠ [])
    (each : ∀ unit ∈ units, isWordUnit unit = true) (rest : List Nat) :
    tokens? between (units ++ rest) = tokens? (word units) rest := by
  cases units with
  | nil =>
      exact absurd rfl nonempty
  | cons first others =>
      obtain ⟨here, later⟩ := List.forall_mem_cons.1 each
      rw [List.cons_append, tokens?_of_next_nil (next_between_word here), tokens?_word later]
      rfl

end Lexing

namespace Tokenizes

theorem readTokens?_eq {source : List Char} {tokens : List Token}
    (tokenizes : Tokenizes source tokens) : readTokens? source = some tokens := by
  obtain ⟨units, translated, read⟩ := tokenizes
  have whole := translated []
  have all := read [] (by simp [Ends])
  rw [List.append_nil] at whole all
  rw [readTokens?, whole]
  simpa [translate?, Lexing.tokens?, Lexing.finish] using all

/-- A text literal is one token. -/
theorem stringLiteral (text : String) :
    Tokenizes (stringLiteral text).toList [.text (encodeUnits text.toList)] := by
  obtain ⟨inner, translated, read⟩ := Lexing.tokens?_literalChars text.toList
  have quote : codeUnits '"' = ['"'.toNat] := rfl
  refine ⟨.raw '"'.toNat :: (inner ++ [.raw '"'.toNat]), fun rest => ?_, fun rest ends => ?_⟩
  · rw [(isPrintable_stringLiteral text).1, List.cons_append, translate?_char (by decide),
      List.append_assoc, List.singleton_append, translated, translate?_char (by decide), quote,
      map_append_map, map_append_map]
    rfl
  · rw [List.map_cons, List.map_append, List.cons_append, List.append_assoc]
    refine (Lexing.tokens?_of_next_nil rfl _).trans ((read [] _).trans ?_)
    refine (Lexing.tokens?_of_next_nil rfl _).trans ?_
    exact Lexing.tokens?_closed_ends _ ends

/-- Code is translated unit by unit. -/
theorem of_code {code : List Char} (noBackslash : '\\' ∉ code) {tokens : List Token}
    (read : ∀ rest, Ends rest →
      Lexing.between.tokens? (encodeUnits code ++ rest) =
        (Lexing.between.tokens? rest).map (tokens ++ ·)) :
    Tokenizes code tokens := by
  refine ⟨(encodeUnits code).map .raw, translate?_chars noBackslash, fun rest ends => ?_⟩
  have codes : ((encodeUnits code).map InputUnit.raw).map InputUnit.code = encodeUnits code := by
    rw [List.map_map]
    exact List.map_id _
  rw [codes]
  exact read rest ends

/-- Characters of words are one token. -/
theorem word {chars : List Char} (nonempty : chars ≠ [])
    (each : ∀ unit ∈ encodeUnits chars, isWordUnit unit = true) :
    Tokenizes chars [.word (encodeUnits chars)] := by
  have noBackslash : '\\' ∉ chars := by
    intro member
    have isWord := each '\\'.toNat (List.mem_flatMap.2 ⟨_, member, List.mem_singleton_self _⟩)
    cases isWord
  have unitsNonempty : encodeUnits chars ≠ [] := by
    intro none
    obtain ⟨c, others, rfl⟩ := List.exists_cons_of_ne_nil nonempty
    rw [encodeUnits, List.flatMap_cons, List.append_eq_nil_iff] at none
    exact codeUnits_ne_nil c none.1
  refine of_code noBackslash fun rest ends => ?_
  rw [Lexing.tokens?_between_word unitsNonempty each, Lexing.tokens?_word_ends _ ends]

/-- The digits of a negative power of ten are one token with the number before them. -/
theorem power {mantissa digits : List Char}
    (mantissaEach : ∀ c ∈ mantissa, c.isDigit = true ∨ c = '.')
    (someDigit : ∃ c ∈ mantissa, c.isDigit = true) (digitsEach : ∀ c ∈ digits, c.isDigit = true) :
    Tokenizes (mantissa ++ 'e' :: '-' :: digits)
      [.word (encodeUnits (mantissa ++ 'e' :: '-' :: digits))] := by
  have noBackslash : '\\' ∉ mantissa ++ 'e' :: '-' :: digits := by
    intro member
    simp only [List.mem_append, List.mem_cons] at member
    rcases member with inMantissa | same | same | inDigits
    · rcases mantissaEach _ inMantissa with digit | same
      · cases digit
      · cases same
    · cases same
    · cases same
    · cases digitsEach _ inDigits
  have inMantissa : ∀ c ∈ mantissa, c.toNat < 0x80 ∧ isWordUnit c.toNat = true ∧
      (isDigitUnit c.toNat || c.toNat == '.'.toNat) = true := by
    intro c member
    rcases mantissaEach c member with digit | rfl
    · obtain ⟨isWord, -, isDigit⟩ := of_isDigit digit
      exact ⟨toNat_lt_of_isDigit digit, isWord, by rw [isDigit]; rfl⟩
    · decide
  have ascii : ∀ c ∈ mantissa ++ 'e' :: '-' :: digits, c.toNat < 0x80 := by
    refine List.forall_mem_append.2 ⟨fun c member => (inMantissa c member).1,
      List.forall_mem_cons.2 ⟨by decide, List.forall_mem_cons.2 ⟨by decide, ?_⟩⟩⟩
    exact fun c member => toNat_lt_of_isDigit (digitsEach c member)
  have marked : endsInExponentMark (mantissa.map Char.toNat ++ ['e'.toNat]) = true := by
    obtain ⟨c, member, digit⟩ := someDigit
    rw [endsInExponentMark, List.dropLast_concat, List.getLast?_concat, Bool.and_eq_true,
      Bool.and_eq_true, List.any_eq_true, List.all_eq_true]
    refine ⟨⟨⟨c.toNat, List.mem_map_of_mem member, (of_isDigit digit).2.2⟩, ?_⟩, rfl⟩
    exact List.forall_mem_map.2 fun c member => (inMantissa c member).2.2
  have digitWords : ∀ unit ∈ digits.map Char.toNat, isWordUnit unit = true :=
    List.forall_mem_map.2 fun c member => (of_isDigit (digitsEach c member)).1
  have units : encodeUnits (mantissa ++ 'e' :: '-' :: digits) =
      mantissa.map Char.toNat ++ ['e'.toNat] ++ '-'.toNat :: digits.map Char.toNat := by
    rw [encodeUnits_of_ascii ascii]
    simp
  have numberWords : ∀ unit ∈ mantissa.map Char.toNat ++ ['e'.toNat], isWordUnit unit = true := by
    refine List.forall_mem_append.2 ⟨?_, by decide⟩
    exact List.forall_mem_map.2 fun c member => (inMantissa c member).2.1
  rw [units]
  refine of_code noBackslash fun rest ends => ?_
  rw [units]
  have nonempty : mantissa.map Char.toNat ++ ['e'.toNat] ≠ [] := by
    simp
  generalize mantissa.map Char.toNat ++ ['e'.toNat] = number at marked numberWords nonempty ⊢
  have goesOn : (Lexing.word number).next '-'.toNat =
      some ([], .word (number ++ ['-'.toNat])) := by
    rw [Lexing.next, continues, marked]
    rfl
  rw [List.append_assoc, List.cons_append, Lexing.tokens?_between_word nonempty numberWords,
    Lexing.tokens?_of_next_nil goesOn, Lexing.tokens?_word digitWords,
    Lexing.tokens?_word_ends _ ends]
  simp

variable {first second : List Char} {firstTokens secondTokens : List Token}

/-- A blank ends a token. -/
theorem append_blank (firstTokenizes : Tokenizes first firstTokens)
    (secondTokenizes : Tokenizes second secondTokens) :
    Tokenizes (first ++ ' ' :: second) (firstTokens ++ secondTokens) := by
  obtain ⟨firstUnits, firstTranslated, firstRead⟩ := firstTokenizes
  obtain ⟨secondUnits, secondTranslated, secondRead⟩ := secondTokenizes
  have blank : codeUnits ' ' = [' '.toNat] := rfl
  refine ⟨firstUnits ++ .raw ' '.toNat :: secondUnits, fun rest => ?_, fun rest ends => ?_⟩
  · rw [List.append_assoc, firstTranslated, List.cons_append, translate?_char (by decide),
      secondTranslated, blank, map_append_map _ secondUnits, map_append_map]
    rfl
  · have blankEnds : Ends (' '.toNat :: (secondUnits.map InputUnit.code ++ rest)) := by
      rintro unit ⟨⟩
      exact .inl rfl
    rw [List.map_append, List.map_cons, List.append_assoc, List.cons_append]
    refine (firstRead _ blankEnds).trans ?_
    have skipped : Lexing.between.tokens? (' '.toNat :: (secondUnits.map InputUnit.code ++ rest)) =
        Lexing.between.tokens? (secondUnits.map InputUnit.code ++ rest) :=
      Lexing.tokens?_of_next_nil rfl _
    rw [skipped, secondRead rest ends, map_append_map]

/-- A separator is a token, and ends the token before it. -/
theorem append_separator {c : Char} (isSeparator : c ∈ [')', ';'])
    (tokenizes : Tokenizes first firstTokens) :
    Tokenizes (first ++ [c]) (firstTokens ++ [.mark c.toNat]) := by
  obtain ⟨noBackslash, unit, separates, goesOn⟩ : c ≠ '\\' ∧ codeUnits c = [c.toNat] ∧
      Java.isSeparator c.toNat = true ∧
      Lexing.between.next c.toNat = some ([.mark c.toNat], .between) := by
    rw [List.mem_cons, List.mem_singleton] at isSeparator
    rcases isSeparator with rfl | rfl <;> decide
  obtain ⟨units, translated, read⟩ := tokenizes
  refine ⟨units ++ [.raw c.toNat], fun rest => ?_, fun rest _ => ?_⟩
  · rw [List.append_assoc, translated, List.singleton_append, translate?_char noBackslash, unit,
      map_append_map]
    rfl
  · have separatorEnds : Ends (c.toNat :: rest) := by
      rintro unit ⟨⟩
      exact .inr separates
    rw [List.map_append, List.append_assoc]
    refine (read _ separatorEnds).trans ?_
    rw [Lexing.tokens?_of_next goesOn, map_append_map]

/-- Code before a source, of which no token goes on. -/
theorem code_append {code : List Char} {codeTokens : List Token} (noBackslash : '\\' ∉ code)
    (read : ∀ rest, Lexing.between.tokens? (encodeUnits code ++ rest) =
      (Lexing.between.tokens? rest).map (codeTokens ++ ·))
    (tokenizes : Tokenizes first firstTokens) :
    Tokenizes (code ++ first) (codeTokens ++ firstTokens) := by
  obtain ⟨units, translated, unitsRead⟩ := tokenizes
  refine ⟨(encodeUnits code).map .raw ++ units, fun rest => ?_, fun rest ends => ?_⟩
  · rw [List.append_assoc, translate?_chars noBackslash, translated, map_append_map]
  · have codes : ((encodeUnits code).map InputUnit.raw).map InputUnit.code = encodeUnits code := by
      rw [List.map_map]
      exact List.map_id _
    rw [List.map_append, codes, List.append_assoc, read, unitsRead rest ends, map_append_map]

/-- A separator before a source is a token. -/
theorem opened (tokenizes : Tokenizes first firstTokens) :
    Tokenizes ('(' :: first) (.mark '('.toNat :: firstTokens) := by
  have noBackslash : '\\' ∉ ['('] := by
    decide
  exact code_append noBackslash (Lexing.tokens?_of_next rfl) tokenizes

/-- An operator with a blank after it is a token. -/
theorem operator {c : Char} (isOperator : c ∈ ['=', '/'])
    (tokenizes : Tokenizes first firstTokens) :
    Tokenizes (c :: ' ' :: first) (.mark c.toNat :: firstTokens) := by
  obtain ⟨noBackslash, units, begins⟩ : '\\' ∉ [c, ' '] ∧
      encodeUnits [c, ' '] = [c.toNat, ' '.toNat] ∧
      Lexing.between.next c.toNat = some ([], .operator c.toNat) := by
    rw [List.mem_cons, List.mem_singleton] at isOperator
    rcases isOperator with rfl | rfl <;> decide
  have read (rest : List Nat) : Lexing.between.tokens? (encodeUnits [c, ' '] ++ rest) =
      (Lexing.between.tokens? rest).map ([.mark c.toNat] ++ ·) := by
    rw [units]
    exact (Lexing.tokens?_of_next_nil begins _).trans (Lexing.tokens?_of_next rfl rest)
  exact code_append noBackslash read tokenizes

/-- A sign before a source that begins with a digit is a token. -/
theorem negated {c : Char} (isDigit : c.isDigit = true)
    (tokenizes : Tokenizes (c :: first) firstTokens) :
    Tokenizes ('-' :: c :: first) (.mark '-'.toNat :: firstTokens) := by
  obtain ⟨units, translated, read⟩ := tokenizes
  obtain ⟨-, noOperator, -⟩ := of_isDigit isDigit
  obtain ⟨others, codes⟩ : ∃ others, units.map InputUnit.code = c.toNat :: others := by
    have noBackslash : c ≠ '\\' := by
      rintro rfl
      cases isDigit
    have whole := translated []
    rw [List.append_nil, translate?_char noBackslash,
      codeUnits_of_ascii (toNat_lt_of_isDigit isDigit)] at whole
    obtain ⟨others, -, same⟩ := Option.map_eq_some_iff.1 whole
    obtain rfl := same.trans (List.append_nil units)
    exact ⟨others.map InputUnit.code, rfl⟩
  refine ⟨.raw '-'.toNat :: units, fun rest => ?_, fun rest ends => ?_⟩
  · rw [List.cons_append, translate?_char (by decide), translated, map_append_map]
    rfl
  · have whole := read rest ends
    have completed : (Lexing.operator '-'.toNat).next c.toNat =
        Lexing.complete (.mark '-'.toNat) c.toNat := by
      rw [Lexing.next, noOperator]
      rfl
    rw [List.map_cons, List.cons_append]
    refine (Lexing.tokens?_of_next_nil rfl _).trans ?_
    rw [codes, List.cons_append] at whole ⊢
    refine (Lexing.tokens?_complete completed _).trans ?_
    exact (congrArg _ whole).trans (map_append_map [_] firstTokens _)

end Tokenizes

end AheadOfTime.Java
