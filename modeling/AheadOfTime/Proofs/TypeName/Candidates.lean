import AheadOfTime.Proofs.Path
import AheadOfTime.Proofs.TypeName.Issued

/-!
# What candidates read as

A candidate is read from the text of the package, the stem and the number.  Only the stem
itself can end in blanks that reading drops, so candidates of different numbers that are
names are different names, and stems kept under one key have the same candidates.
-/

namespace AheadOfTime

namespace Text

theorem trimStart_of_visible {c : Char} {rest : List Char}
    (visible : Unicode.isBlank c = false) : trimStart (c :: rest) = c :: rest := by
  rw [trimStart, List.dropWhile_cons_of_neg]
  simp [visible]

/-- A text is what trimming leaves of its end, followed by blanks. -/
theorem trimEnd_append_blanks (text : List Char) :
    ∃ blanks, trimEnd text ++ blanks = text ∧ ∀ c ∈ blanks, Unicode.isBlank c = true := by
  refine ⟨(text.reverse.takeWhile Unicode.isBlank).reverse, ?_, fun c member => ?_⟩
  · rw [trimEnd, ← List.reverse_append, List.takeWhile_append_dropWhile, List.reverse_reverse]
  · exact List.all_eq_true.1 List.all_takeWhile c (List.mem_reverse.1 member)

theorem trimEnd_of_visible {text : List Char} {c : Char}
    (visible : Unicode.isBlank c = false) : trimEnd (text ++ [c]) = text ++ [c] := by
  rw [trimEnd, List.reverse_append, List.reverse_singleton, List.singleton_append,
    List.dropWhile_cons_of_neg (by simp [visible]), List.reverse_cons, List.reverse_reverse]

theorem trimEnd_append {text blanks : List Char}
    (isBlank : ∀ c ∈ blanks, Unicode.isBlank c = true) :
    trimEnd (text ++ blanks) = trimEnd text := by
  rw [trimEnd, trimEnd, List.reverse_append, List.dropWhile_append_of_pos]
  exact fun c member => isBlank c (List.mem_reverse.1 member)

theorem join_concat_append (separator : List Char) (parts : List (List Char))
    (last suffix : List Char) :
    join separator (parts ++ [last ++ suffix]) = join separator (parts ++ [last]) ++ suffix := by
  by_cases nonempty : parts = []
  · rw [nonempty]
    rfl
  · rw [join_concat _ _ nonempty, join_concat _ _ nonempty, ← List.append_assoc]

/-- Parts without the separator and one more text split into the parts and the parts of
that text. -/
theorem split_join_concat {separator : Char} {parts : List (List Char)}
    (absent : ∀ part ∈ parts, separator ∉ part) (last : List Char) :
    split separator (join [separator] (parts ++ [last])) = parts ++ split separator last := by
  induction parts with
  | nil =>
      rfl
  | cons part parts inductionHypothesis =>
      obtain ⟨here, others⟩ := List.forall_mem_cons.1 absent
      have joined : join [separator] (part :: parts ++ [last]) =
          part ++ separator :: join [separator] (parts ++ [last]) := by
        rw [List.cons_append]
        cases whole : parts ++ [last] with
        | nil =>
            exact absurd whole (List.append_ne_nil_of_right_ne_nil _ (List.cons_ne_nil _ _))
        | cons next rest =>
            rw [join, List.append_assoc]
            rfl
            exact List.cons_ne_nil next rest
      rw [joined, split_append_cons here, inductionHypothesis others]
      rfl

end Text

namespace TypeName

theorem identify_eq_ok_iff {parts : List (List Char)} {names : List Identifier} :
    identify parts = .ok names ↔ parts = names.map Identifier.chars := by
  constructor
  · intro identified
    induction parts generalizing names with
    | nil =>
        cases identified
        rfl
    | cons part parts inductionHypothesis =>
        rw [identify] at identified
        split at identified
        · cases identified
        · rename_i name found
          cases rest : identify parts with
          | error segment =>
              rw [rest] at identified
              cases identified
          | ok others =>
              rw [rest] at identified
              cases identified
              have text := Identifier.ofString?_eq_some_iff.1 found
              rw [List.map_cons, ← inductionHypothesis rest, Identifier.chars, text,
                String.toList_ofList]
  · rintro rfl
    exact identify_map_chars names

theorem segments_ofSegments (first : Identifier) (rest : List Identifier) :
    (ofSegments first rest).segments = first :: rest := by
  induction rest generalizing first with
  | nil =>
      rfl
  | cons next rest inductionHypothesis =>
      exact congrArg (first :: ·) (inductionHypothesis next)

/-- A text reads as the type whose dotted text it is, but for blanks around it. -/
theorem parse_eq_ok_iff {text : String} {type : TypeName} :
    parse text = .ok type ↔ Text.trim text.toList = type.canonical.toList := by
  constructor
  · intro reads
    unfold parse at reads
    simp only at reads
    split at reads
    · cases reads
    · cases identified : identify (Text.split '.' (Text.trim text.toList)) with
      | error segment =>
          rw [identified] at reads
          cases reads
      | ok names =>
          rw [identified] at reads
          cases names with
          | nil =>
              cases reads
          | cons first rest =>
              cases reads
              rw [canonical, segments_ofSegments, toList_dotted, ← identify_eq_ok_iff.1 identified,
                Text.join_split]
  · intro same
    have read := parse_canonical type
    have trimmed : Text.trim type.canonical.toList = type.canonical.toList :=
      trim_dotted type.segments
    unfold parse at read ⊢
    rw [trimmed] at read
    rw [same]
    exact read

/-- A text reads as some type exactly if each part between its dots is an identifier. -/
theorem exists_parse_eq_ok_iff {text : String} :
    (∃ type, parse text = .ok type) ↔
      ∀ part ∈ Text.split '.' (Text.trim text.toList),
        isIdentifier (String.ofList part) = true := by
  constructor
  · rintro ⟨type, reads⟩ part member
    rw [parse_eq_ok_iff.1 reads, canonical, split_dotted type.segments_ne_nil] at member
    obtain ⟨name, -, same⟩ := List.mem_map.1 member
    rw [← same, name.ofList_chars]
    exact name.valid
  · intro each
    have named : ∃ names : List Identifier,
        Text.split '.' (Text.trim text.toList) = names.map Identifier.chars := by
      generalize Text.split '.' (Text.trim text.toList) = parts at each
      induction parts with
      | nil =>
          exact ⟨[], rfl⟩
      | cons part parts inductionHypothesis =>
          obtain ⟨here, others⟩ := List.forall_mem_cons.1 each
          obtain ⟨names, same⟩ := inductionHypothesis others
          exact ⟨⟨String.ofList part, here⟩ :: names, by
            rw [List.map_cons, ← same, Identifier.chars, String.toList_ofList]⟩
    obtain ⟨names, same⟩ := named
    cases names with
    | nil =>
        exact absurd same (Text.split_ne_nil _ _)
    | cons first rest =>
        refine ⟨ofSegments first rest, parse_eq_ok_iff.2 ?_⟩
        rw [canonical, segments_ofSegments, toList_dotted, ← same, Text.join_split]

end TypeName

namespace IssuedNames

def qualified (base : TypeName) (simple : String) : List Char :=
  Text.join ['.'] (base.package.map Identifier.chars ++ [simple.toList])

theorem peer_eq_parse (base : TypeName) (simple : String) :
    base.peer simple = TypeName.parse (String.ofList (qualified base simple)) := by
  rw [TypeName.peer, TypeName.parseIn, qualified]
  by_cases packaged : base.package = []
  · have noText : base.packageText.isEmpty = true := by
      rw [TypeName.packageText, packaged]
      rfl
    rw [if_pos noText, packaged]
    exact congrArg TypeName.parse String.ofList_toList.symm
  · have someText : ¬ base.packageText.isEmpty = true := by
      rw [String.isEmpty_iff, TypeName.packageText, TypeName.dotted_eq_empty_iff]
      exact packaged
    have text : base.packageText ++ "." ++ simple = String.ofList
        (Text.join ['.'] (base.package.map Identifier.chars ++ [simple.toList])) := by
      rw [Text.join_concat _ _ (by simpa using packaged), ← String.toList_inj,
        String.toList_ofList, String.toList_append, String.toList_append, TypeName.packageText,
        TypeName.toList_dotted]
      rfl
    rw [if_neg someText, text]

theorem qualified_append (base : TypeName) (first second : String) :
    qualified base (first ++ second) = qualified base first ++ second.toList := by
  rw [qualified, qualified, String.toList_append, Text.join_concat_append]

theorem split_qualified (base : TypeName) (simple : String) :
    Text.split '.' (qualified base simple) =
      base.package.map Identifier.chars ++ Text.split '.' simple.toList := by
  refine Text.split_join_concat (fun part member => ?_) _
  obtain ⟨name, -, same⟩ := List.mem_map.1 member
  rw [← same]
  exact name.dot_not_mem

/-- The text of a candidate begins with a part of an identifier. -/
theorem exists_qualified_stem_eq_cons (base : TypeName) (feature : String) :
    ∃ c rest, qualified base (stem base feature) = c :: rest ∧ isIdentifierPart c = true := by
  have begins : ∀ (name : Identifier) (rest : List Char),
      ∃ c others, name.chars ++ rest = c :: others ∧ isIdentifierPart c = true := by
    intro name rest
    obtain ⟨c, others, chars⟩ := List.exists_cons_of_ne_nil name.chars_ne_nil
    refine ⟨c, others ++ rest, by rw [chars]; rfl, ?_⟩
    exact name.isIdentifierPart_of_mem (by rw [chars]; exact List.mem_cons_self)
  rw [qualified]
  cases base.package with
  | nil =>
      rw [List.map_nil, List.nil_append, Text.join, toList_stem, List.append_assoc]
      exact begins base.simple _
  | cons first package =>
      rw [List.map_cons, List.cons_append, Text.join, List.append_assoc]
      · exact begins first _
      · exact List.append_ne_nil_of_right_ne_nil _ (List.cons_ne_nil _ _)

theorem numbered_one (base : TypeName) (feature : String) :
    numbered base feature 1 = stem base feature :=
  if_pos rfl

theorem numbered_of_ne {number : Nat} (later : number ≠ 1) (base : TypeName)
    (feature : String) :
    numbered base feature number = stem base feature ++ "$" ++ toString number :=
  if_neg later

theorem qualified_numbered_of_ne {number : Nat} (later : number ≠ 1) (base : TypeName)
    (feature : String) :
    qualified base (numbered base feature number) =
      qualified base (stem base feature) ++ '$' :: (toString number).toList := by
  rw [numbered_of_ne later, qualified_append, qualified_append, List.append_assoc]
  rfl

theorem trimStart_numbered (base : TypeName) (feature : String) (number : Nat) :
    Text.trimStart (qualified base (numbered base feature number)) =
      qualified base (numbered base feature number) := by
  obtain ⟨c, rest, begins, part⟩ := exists_qualified_stem_eq_cons base feature
  have visible := not_isBlank_of_isIdentifierPart part
  by_cases first : number = 1
  · rw [first, numbered_one, begins, Text.trimStart_of_visible visible]
  · rw [qualified_numbered_of_ne first, begins, List.cons_append,
      Text.trimStart_of_visible visible]

/-- A number ends in a character that is no blank. -/
theorem exists_toString_eq_concat (number : Nat) :
    ∃ front last, (toString number).toList = front ++ [last] ∧
      Unicode.isBlank last = false := by
  have digits : (toString number).toList ≠ [] := fun empty =>
    Numbering.toString_ne_empty number (String.toList_eq_nil_iff.1 empty)
  obtain ⟨front, last, ends⟩ := (List.eq_nil_or_concat _).resolve_left digits
  rw [List.concat_eq_append] at ends
  refine ⟨front, last, ends, not_isBlank_of_isIdentifierPart (isIdentifierPart_of_isDigit ?_)⟩
  exact Numbering.isDigit_of_mem_toString
    (by rw [ends]; exact List.mem_append_right _ List.mem_cons_self)

/-- The stem itself is read without the blanks at its end. -/
theorem trim_first (base : TypeName) (feature : String) :
    Text.trim (qualified base (numbered base feature 1)) =
      Text.trimEnd (qualified base (stem base feature)) := by
  rw [Text.trim, trimStart_numbered, numbered_one]

/-- A stem with a number is read as it is. -/
theorem trim_later {number : Nat} (later : number ≠ 1) (base : TypeName) (feature : String) :
    Text.trim (qualified base (numbered base feature number)) =
      qualified base (stem base feature) ++ '$' :: (toString number).toList := by
  obtain ⟨front, last, ends, visible⟩ := exists_toString_eq_concat number
  have ended : qualified base (stem base feature) ++ '$' :: (toString number).toList =
      (qualified base (stem base feature) ++ '$' :: front) ++ [last] := by
    rw [ends, List.append_assoc]
    rfl
  rw [Text.trim, trimStart_numbered, qualified_numbered_of_ne later, ended,
    Text.trimEnd_of_visible visible]

theorem candidate_eq_ok_iff {base : TypeName} {feature : String} {number : Nat}
    {name : TypeName} :
    candidate base feature number = .ok name ↔
      Text.trim (qualified base (numbered base feature number)) = name.canonical.toList := by
  rw [candidate, peer_eq_parse, TypeName.parse_eq_ok_iff, String.toList_ofList]

/-- Candidates of different numbers that are names are different names. -/
theorem number_eq_of_candidate_eq_ok {base : TypeName} {feature : String}
    {first second : Nat} {name : TypeName}
    (isFirst : candidate base feature first = .ok name)
    (isSecond : candidate base feature second = .ok name) : first = second := by
  have shorter : ∀ number : Nat,
      Text.trimEnd (qualified base (stem base feature)) ≠
        qualified base (stem base feature) ++ '$' :: (toString number).toList := by
    intro number same
    obtain ⟨blanks, whole, -⟩ := Text.trimEnd_append_blanks (qualified base (stem base feature))
    have lengths := congrArg List.length whole
    rw [same, List.length_append, List.length_append, List.length_cons] at lengths
    omega
  have texts := (candidate_eq_ok_iff.1 isFirst).trans (candidate_eq_ok_iff.1 isSecond).symm
  by_cases firstOne : first = 1
  · by_cases secondOne : second = 1
    · rw [firstOne, secondOne]
    · rw [firstOne, trim_first, trim_later secondOne] at texts
      exact absurd texts (shorter second)
  · by_cases secondOne : second = 1
    · rw [secondOne, trim_first, trim_later firstOne] at texts
      exact absurd texts.symm (shorter first)
    · rw [trim_later firstOne, trim_later secondOne] at texts
      have digits := (List.cons.inj (List.append_cancel_left texts)).2
      exact Numbering.toString_injective (String.toList_inj.1 digits)

/-- The key of a stem is the text that its first candidate is read from, behind a dot in the
default package. -/
theorem toList_counterKey (base : TypeName) (feature : String) :
    (counterKey base feature).toList =
      (if base.package = [] then ['.'] else []) ++ qualified base (stem base feature) := by
  rw [counterKey, String.toList_append, String.toList_append, TypeName.packageText,
    TypeName.toList_dotted, qualified]
  by_cases packaged : base.package = []
  · rw [if_pos packaged, packaged]
    rfl
  · rw [if_neg packaged, Text.join_concat _ _ (by simpa using packaged)]
    rfl

/-- Stems kept under one key have the same candidates. -/
theorem qualified_stem_of_counterKey {base other : TypeName} {feature another : String}
    (same : counterKey base feature = counterKey other another) :
    qualified base (stem base feature) = qualified other (stem other another) := by
  have texts := congrArg String.toList same
  rw [toList_counterKey, toList_counterKey] at texts
  have dotless : ∀ (type : TypeName) (name : String) (rest : List Char),
      qualified type (stem type name) ≠ '.' :: rest := by
    intro type name rest begins
    obtain ⟨c, others, whole, part⟩ := exists_qualified_stem_eq_cons type name
    rw [begins] at whole
    rw [← (List.cons.inj whole).1] at part
    exact absurd part (by decide)
  by_cases packaged : base.package = []
  · by_cases packagedToo : other.package = []
    · rw [if_pos packaged, if_pos packagedToo] at texts
      exact List.append_cancel_left texts
    · rw [if_pos packaged, if_neg packagedToo] at texts
      exact absurd texts.symm (dotless other another _)
  · by_cases packagedToo : other.package = []
    · rw [if_neg packaged, if_pos packagedToo] at texts
      exact absurd texts (dotless base feature _)
    · rw [if_neg packaged, if_neg packagedToo] at texts
      exact texts

theorem candidate_of_counterKey {base other : TypeName} {feature another : String}
    (same : counterKey base feature = counterKey other another) (number : Nat)
    (name : TypeName) :
    candidate base feature number = .ok name ↔ candidate other another number = .ok name := by
  rw [candidate_eq_ok_iff, candidate_eq_ok_iff]
  by_cases first : number = 1
  · rw [first, trim_first, trim_first, qualified_stem_of_counterKey same]
  · rw [trim_later first, trim_later first, qualified_stem_of_counterKey same]

end IssuedNames

end AheadOfTime
