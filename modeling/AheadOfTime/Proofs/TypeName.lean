import AheadOfTime.Proofs.Identifier
import AheadOfTime.TypeName

/-!
# Reading type names back

The dotted text of a type name reads back as the type name, so different type names
have different texts, and every identifier names a peer of every type.
-/

namespace AheadOfTime

namespace Text

theorem trim_of_visible {text : List Char}
    (visible : ∀ c ∈ text, Unicode.isBlank c = false) : trim text = text := by
  have keep : ∀ chars : List Char, (∀ c ∈ chars, Unicode.isBlank c = false) →
      chars.dropWhile Unicode.isBlank = chars := by
    intro chars visibleChars
    cases chars with
    | nil =>
        rfl
    | cons first rest =>
        rw [List.dropWhile_cons_of_neg]
        simp [visibleChars first List.mem_cons_self]
  have keepReversed := keep text.reverse fun c member =>
    visible c (List.mem_reverse.1 member)
  rw [trim, trimStart, keep text visible, trimEnd, keepReversed, List.reverse_reverse]

theorem intercalate_eq_join (separator : List Char) (parts : List (List Char)) :
    separator.intercalate parts = join separator parts := by
  induction parts with
  | nil =>
      rfl
  | cons part parts inductionHypothesis =>
      cases parts with
      | nil =>
          exact List.intercalate_singleton
      | cons next parts =>
          rw [List.intercalate_cons_cons, inductionHypothesis]
          rfl

/-- What a joined text holds: the separator and what its parts hold. -/
theorem mem_join {separator : List Char} {parts : List (List Char)} {c : Char}
    (member : c ∈ join separator parts) :
    c ∈ separator ∨ ∃ part ∈ parts, c ∈ part := by
  induction parts with
  | nil =>
      cases member
  | cons part parts inductionHypothesis =>
      cases parts with
      | nil =>
          exact Or.inr ⟨part, List.mem_singleton_self part, member⟩
      | cons next parts =>
          simp only [join, List.mem_append] at member
          rcases member with (here | between) | later
          · exact Or.inr ⟨part, List.mem_cons_self, here⟩
          · exact Or.inl between
          · refine (inductionHypothesis later).imp_right ?_
            rintro ⟨inner, innerMember, found⟩
            exact ⟨inner, List.mem_cons_of_mem _ innerMember, found⟩

theorem join_concat (separator : List Char) {parts : List (List Char)} (last : List Char)
    (nonempty : parts ≠ []) :
    join separator (parts ++ [last]) = join separator parts ++ separator ++ last := by
  induction parts with
  | nil =>
      exact absurd rfl nonempty
  | cons part parts inductionHypothesis =>
      cases parts with
      | nil =>
          rfl
      | cons next parts =>
          have tail := inductionHypothesis (by simp)
          simp only [List.cons_append] at tail
          simp only [List.cons_append, join, tail, List.append_assoc]

theorem join_eq_nil {separator : Char} {parts : List (List Char)}
    (filled : ∀ part ∈ parts, part ≠ []) (empty : join [separator] parts = []) :
    parts = [] := by
  cases parts with
  | nil =>
      rfl
  | cons part parts =>
      cases parts with
      | nil =>
          exact absurd empty (filled part List.mem_cons_self)
      | cons next parts =>
          simp [join] at empty

end Text

namespace TypeName

theorem toList_dotted (names : List Identifier) :
    (dotted names).toList = Text.join ['.'] (names.map Identifier.chars) :=
  String.toList_ofList

/-- The characters of a dotted name are dots and parts of identifiers. -/
theorem isIdentifierPart_of_mem_dotted {names : List Identifier} {c : Char}
    (member : c ∈ (dotted names).toList) : c = '.' ∨ isIdentifierPart c = true := by
  rw [toList_dotted] at member
  rcases Text.mem_join member with dot | ⟨part, partMember, inPart⟩
  · exact Or.inl (List.mem_singleton.1 dot)
  · obtain ⟨name, -, rfl⟩ := List.mem_map.1 partMember
    exact Or.inr (name.isIdentifierPart_of_mem inPart)

theorem trim_dotted (names : List Identifier) :
    Text.trim (dotted names).toList = (dotted names).toList := by
  refine Text.trim_of_visible fun c member => ?_
  rcases isIdentifierPart_of_mem_dotted member with rfl | part
  · exact Unicode.not_isBlank_of_bounds (by decide) (by decide)
  · exact not_isBlank_of_isIdentifierPart part

theorem dotted_eq_empty_iff (names : List Identifier) : dotted names = "" ↔ names = [] := by
  constructor
  · intro empty
    have noText : Text.join ['.'] (names.map Identifier.chars) = [] := by
      rw [← toList_dotted, empty]
      rfl
    refine List.map_eq_nil_iff.1 (Text.join_eq_nil ?_ noText)
    intro part member
    obtain ⟨name, -, rfl⟩ := List.mem_map.1 member
    exact name.chars_ne_nil
  · rintro rfl
    rfl

theorem split_dotted {names : List Identifier} (nonempty : names ≠ []) :
    Text.split '.' (dotted names).toList = names.map Identifier.chars := by
  rw [toList_dotted]
  refine Text.split_join (by simpa using nonempty) fun part member => ?_
  obtain ⟨name, -, rfl⟩ := List.mem_map.1 member
  exact name.dot_not_mem

theorem identify_map_chars (names : List Identifier) :
    identify (names.map Identifier.chars) = .ok names := by
  induction names with
  | nil =>
      rfl
  | cons name names inductionHypothesis =>
      simp only [List.map_cons, identify, Identifier.ofList_chars, Identifier.ofString?_text,
        inductionHypothesis]

theorem segments_ne_nil (type : TypeName) : type.segments ≠ [] := by
  simp [segments]

theorem ofSegments_of_segments {type : TypeName} {first : Identifier}
    {rest : List Identifier} (parts : type.segments = first :: rest) :
    ofSegments first rest = type := by
  induction rest generalizing type first with
  | nil =>
      obtain ⟨package, simple⟩ := type
      cases package with
      | nil =>
          simp only [segments, List.nil_append, List.cons.injEq, and_true] at parts
          rw [parts, ofSegments]
      | cons head package =>
          simp [segments] at parts
  | cons next rest inductionHypothesis =>
      obtain ⟨package, simple⟩ := type
      cases package with
      | nil =>
          simp [segments] at parts
      | cons head package =>
          simp only [segments, List.cons_append, List.cons.injEq] at parts
          have inner : ofSegments next rest = ⟨package, simple⟩ :=
            inductionHypothesis parts.2
          rw [ofSegments, inner, parts.1]

/-- The text of a type name reads back as the type name. -/
theorem parse_canonical (type : TypeName) : parse type.canonical = .ok type := by
  have nonempty : (dotted type.segments).toList.isEmpty = false := by
    rw [List.isEmpty_eq_false_iff, ne_eq, String.toList_eq_nil_iff, dotted_eq_empty_iff]
    exact type.segments_ne_nil
  rw [parse, canonical]
  simp only [trim_dotted, nonempty, split_dotted type.segments_ne_nil, identify_map_chars]
  cases parts : type.segments with
  | nil =>
      exact absurd parts type.segments_ne_nil
  | cons first rest =>
      exact congrArg Except.ok (ofSegments_of_segments parts)

theorem canonical_injective {first second : TypeName}
    (same : first.canonical = second.canonical) : first = second := by
  have read : Except.ok first = Except.ok (ε := TypeNameError) second := by
    rw [← parse_canonical, same, parse_canonical]
  exact Except.ok.inj read

theorem dotted_append_simple {package : List Identifier} (packaged : package ≠ [])
    (simple : Identifier) :
    dotted package ++ "." ++ simple.text = canonical ⟨package, simple⟩ := by
  rw [← String.toList_inj, String.toList_append, String.toList_append, canonical,
    toList_dotted, toList_dotted, segments, List.map_append]
  exact (Text.join_concat ['.'] simple.chars (by simpa using packaged)).symm

theorem peer_text (type : TypeName) (simple : Identifier) :
    type.peer simple.text = .ok ⟨type.package, simple⟩ := by
  have read := parse_canonical ⟨type.package, simple⟩
  by_cases packaged : type.package = []
  · have noText : type.packageText.isEmpty = true := by
      rw [packageText, packaged]
      rfl
    have whole : simple.text = canonical ⟨type.package, simple⟩ := by
      rw [canonical, segments, packaged]
      exact simple.ofList_chars.symm
    rw [peer, parseIn, if_pos noText, whole, read]
  · have someText : ¬ type.packageText.isEmpty = true := by
      rw [String.isEmpty_iff, packageText, dotted_eq_empty_iff]
      exact packaged
    rw [peer, parseIn, if_neg someText]
    exact (congrArg parse (dotted_append_simple packaged simple)).trans read

end TypeName

end AheadOfTime
