import AheadOfTime.Proofs.TypeName.Requests

/-!
# What a request is granted

A request whose stem is an identifier gets the stem, or the stem with a number, in the package
of the base type.  A stem that is none is read all the same when its dots are taken for those
of a package, when a number makes a name of what follows its last dot, or when the blanks at
its end are dropped; what it is granted then is no name of the stem.
-/

namespace AheadOfTime

namespace Text

/-- What holds no separator goes to the last part. -/
theorem split_append_of_not_mem {separator : Char} {text suffix last : List Char}
    {front : List (List Char)} (parts : split separator text = front ++ [last])
    (absent : separator ∉ suffix) :
    split separator (text ++ suffix) = front ++ [last ++ suffix] := by
  have whole : text ++ suffix = join [separator] (front ++ [last ++ suffix]) := by
    rw [join_concat_append, ← parts, join_split]
  have apart : ∀ part ∈ front ++ [last], separator ∉ part := by
    intro part member
    rw [← parts] at member
    exact separator_not_mem_of_mem_split member
  rw [List.forall_mem_append, List.forall_mem_singleton] at apart
  rw [whole, split_join_concat apart.1, split_of_not_mem]
  rw [List.mem_append, not_or]
  exact ⟨apart.2, absent⟩

end Text

theorem Identifier.chars_injective : Function.Injective chars :=
  fun _ _ same => Identifier.ext (String.toList_inj.1 same)

theorem dot_not_mem_of_isBlank {blanks : List Char}
    (isBlank : ∀ c ∈ blanks, Unicode.isBlank c = true) : '.' ∉ blanks := by
  intro member
  have visible : Unicode.isBlank '.' = false :=
    Unicode.not_isBlank_of_bounds (by decide) (by decide)
  rw [isBlank '.' member] at visible
  cases visible

theorem blanks_eq_nil_of_append {front blanks name : List Char} {last : Char}
    (visible : Unicode.isBlank last = false) (isBlank : ∀ c ∈ blanks, Unicode.isBlank c = true)
    (same : front ++ [last] = name ++ blanks) : blanks = [] := by
  rcases List.eq_nil_or_concat blanks with none | ⟨others, blank, ends⟩
  · exact none
  · rw [List.concat_eq_append] at ends
    rw [ends, ← List.append_assoc] at same
    have here := (List.append_inj' same rfl).2
    rw [List.cons.inj here |>.1, isBlank blank (by rw [ends]; simp)] at visible
    cases visible

namespace TypeName

theorem trimEnd_dotted (names : List Identifier) :
    Text.trimEnd (dotted names).toList = (dotted names).toList := by
  rcases List.eq_nil_or_concat (dotted names).toList with none | ⟨front, last, ends⟩
  · rw [none]
    rfl
  · rw [List.concat_eq_append] at ends
    rw [ends]
    refine Text.trimEnd_of_visible ?_
    have member : last ∈ (dotted names).toList := by
      rw [ends]
      exact List.mem_append_right _ List.mem_cons_self
    rcases isIdentifierPart_of_mem_dotted member with rfl | part
    · exact Unicode.not_isBlank_of_bounds (by decide) (by decide)
    · exact not_isBlank_of_isIdentifierPart part

end TypeName

namespace IssuedNames

theorem toList_canonical (name : TypeName) :
    name.canonical.toList =
      Text.join ['.'] (name.package.map Identifier.chars ++ [name.simple.chars]) := by
  rw [TypeName.canonical, TypeName.toList_dotted, TypeName.segments, List.map_append]
  rfl

/-- A candidate is a name if the parts between its dots are identifiers, the last of them but
for blanks behind it.  All but the last belong to the package of the name. -/
theorem candidate_eq_ok_iff_parts {base : TypeName} {feature : String} {number : Nat}
    {name : TypeName} :
    candidate base feature number = .ok name ↔
      ∃ (inner : List Identifier) (blanks : List Char), name.package = base.package ++ inner ∧
        (∀ c ∈ blanks, Unicode.isBlank c = true) ∧
        Text.split '.' (numbered base feature number).toList =
          inner.map Identifier.chars ++ [name.simple.chars ++ blanks] := by
  have split : Text.split '.' (qualified base (numbered base feature number)) =
      base.package.map Identifier.chars ++
        Text.split '.' (numbered base feature number).toList :=
    split_qualified base _
  rw [candidate_eq_ok_iff, Text.trim, trimStart_numbered]
  constructor
  · intro trimmed
    obtain ⟨blanks, whole, isBlank⟩ :=
      Text.trimEnd_append_blanks (qualified base (numbered base feature number))
    rw [trimmed, toList_canonical, ← Text.join_concat_append] at whole
    have dotless : ∀ part ∈ name.package.map Identifier.chars, '.' ∉ part := by
      intro part member
      obtain ⟨identifier, -, rfl⟩ := List.mem_map.1 member
      exact identifier.dot_not_mem
    have dotlessLast : '.' ∉ name.simple.chars ++ blanks := by
      rw [List.mem_append, not_or]
      exact ⟨name.simple.dot_not_mem, dot_not_mem_of_isBlank isBlank⟩
    rw [← whole, Text.split_join_concat dotless, Text.split_of_not_mem dotlessLast] at split
    obtain ⟨front, last, parts⟩ :=
      (List.eq_nil_or_concat _).resolve_left (Text.split_ne_nil '.'
        (numbered base feature number).toList)
    rw [List.concat_eq_append] at parts
    rw [parts, ← List.append_assoc] at split
    obtain ⟨sameFront, sameLast⟩ := List.append_inj' split rfl
    obtain ⟨package, inner, packages, samePackage, sameInner⟩ :=
      List.map_eq_append_iff.1 sameFront
    refine ⟨inner, blanks, ?_, isBlank, ?_⟩
    · rw [packages, List.map_injective_iff.2 Identifier.chars_injective samePackage]
    · rw [parts, sameInner, sameLast]
  · rintro ⟨inner, blanks, package, isBlank, parts⟩
    have whole : qualified base (numbered base feature number) =
        name.canonical.toList ++ blanks := by
      rw [← Text.join_split '.' (qualified base _), split, parts, ← List.append_assoc,
        ← List.map_append, ← package, Text.join_concat_append, toList_canonical]
    rw [whole, Text.trimEnd_append isBlank]
    exact TypeName.trimEnd_dotted name.segments

namespace Request

/-- The stem of a request, split at its dots: identifiers and a last part. -/
def Parted (request : Request) (inner : List Identifier) (last : List Char) : Prop :=
  Text.split '.' (stem request.base request.feature).toList =
    inner.map Identifier.chars ++ [last]

variable {request : Request} {inner : List Identifier} {last : List Char}

theorem Parted.unique {otherInner : List Identifier} {otherLast : List Char}
    (parted : request.Parted inner last) (other : request.Parted otherInner otherLast) :
    inner = otherInner ∧ last = otherLast := by
  rw [Parted, parted] at other
  obtain ⟨sameInner, sameLast⟩ := List.append_inj' other rfl
  exact ⟨List.map_injective_iff.2 Identifier.chars_injective sameInner,
    (List.cons.inj sameLast).1⟩

theorem isIdentifier_stem_of_shape
    (shape : isIdentifierShape (stem request.base request.feature).toList = true) :
    isIdentifier (stem request.base request.feature) = true := by
  have marked : '_' ∈ (stem request.base request.feature).toList := by
    rw [toList_stem]
    simp
  rw [← String.ofList_toList (s := stem request.base request.feature)]
  exact isIdentifier_of_mem shape marked (by decide)

theorem toList_stem_ne_nil (request : Request) :
    (stem request.base request.feature).toList ≠ [] := by
  intro none
  rw [toList_stem, List.append_eq_nil_iff, List.append_eq_nil_iff] at none
  exact request.base.simple.chars_ne_nil none.1.1

/-- A stem without dots is an identifier if it has the shape of one. -/
theorem Parted.isIdentifier (parted : request.Parted [] last)
    (marked : last = [] ∨ isIdentifierShape last = true) :
    isIdentifier (stem request.base request.feature) = true := by
  have whole : (stem request.base request.feature).toList = last := by
    rw [← Text.join_split '.' (stem request.base request.feature).toList, parted]
    rfl
  rw [← whole] at marked
  exact isIdentifier_stem_of_shape (marked.resolve_left request.toList_stem_ne_nil)

/-- The stem itself is a name if its parts are, but for blanks at the end. -/
theorem candidate_one_eq_ok_iff {name : TypeName} :
    request.candidate 1 = .ok name ↔
      ∃ (inner : List Identifier) (blanks : List Char),
        name.package = request.base.package ++ inner ∧
        (∀ c ∈ blanks, Unicode.isBlank c = true) ∧
        request.Parted inner (name.simple.chars ++ blanks) := by
  rw [candidate, candidate_eq_ok_iff_parts, numbered_one]
  rfl

/-- The stem with a number is a name if its parts are, whether the last is reserved or not, or
if nothing follows its last dot. -/
theorem candidate_eq_ok_iff_of_ne {number : Nat} (later : number ≠ 1) {name : TypeName} :
    request.candidate number = .ok name ↔
      ∃ (inner : List Identifier) (last : List Char),
        name.package = request.base.package ++ inner ∧ request.Parted inner last ∧
        name.simple.chars = last ++ '$' :: (toString number).toList := by
  have text : (numbered request.base request.feature number).toList =
      (stem request.base request.feature).toList ++ '$' :: (toString number).toList := by
    rw [numbered_of_ne later, String.toList_append, String.toList_append, List.append_assoc]
    rfl
  have dotless : '.' ∉ '$' :: (toString number).toList := by
    rw [List.mem_cons, not_or]
    refine ⟨by decide, fun member => ?_⟩
    exact absurd (Numbering.isDigit_of_mem_toString member) (by decide)
  rw [candidate, candidate_eq_ok_iff_parts, text]
  constructor
  · rintro ⟨inner, blanks, package, isBlank, parts⟩
    obtain ⟨front, last, stemParts⟩ :=
      (List.eq_nil_or_concat _).resolve_left (Text.split_ne_nil '.'
        (stem request.base request.feature).toList)
    rw [List.concat_eq_append] at stemParts
    rw [Text.split_append_of_not_mem stemParts dotless] at parts
    obtain ⟨sameFront, sameLast⟩ := List.append_inj' parts rfl
    have simple := (List.cons.inj sameLast).1
    obtain ⟨digits, digit, ends, visible⟩ := exists_toString_eq_concat number
    have none : blanks = [] := by
      have whole : (last ++ '$' :: digits) ++ [digit] = name.simple.chars ++ blanks := by
        rw [← simple, ends, List.append_assoc]
        rfl
      exact blanks_eq_nil_of_append visible isBlank whole
    refine ⟨inner, last, package, stemParts.trans (by rw [sameFront]), ?_⟩
    rw [simple, none, List.append_nil]
  · rintro ⟨inner, last, package, parted, simple⟩
    refine ⟨inner, [], package, List.forall_mem_nil _, ?_⟩
    rw [Text.split_append_of_not_mem parted dotless, simple, List.append_nil]

/-- A number makes an identifier of a last part that is empty or has the shape of one. -/
theorem exists_candidate_eq_ok {number : Nat} (later : number ≠ 1)
    (parted : request.Parted inner last)
    (marked : last = [] ∨ isIdentifierShape last = true) :
    ∃ name, request.candidate number = .ok name := by
  have parts : ∀ c ∈ (toString number).toList, isIdentifierPart c = true := fun c member =>
    isIdentifierPart_of_isDigit (Numbering.isDigit_of_mem_toString member)
  have shape : isIdentifierShape (last ++ '$' :: (toString number).toList) = true := by
    rcases marked with none | shape
    · have dollar : isIdentifierShape ['$'] = true := by decide
      have numbered := isIdentifierShape_append dollar parts
      rw [none]
      exact numbered
    · refine isIdentifierShape_append shape fun c member => ?_
      rcases List.mem_cons.1 member with dollar | digit
      · rw [dollar]
        decide
      · exact parts c digit
  have dollar : '$' ∈ last ++ '$' :: (toString number).toList :=
    List.mem_append_right _ List.mem_cons_self
  have valid := isIdentifier_of_mem shape dollar (by decide)
  exact ⟨⟨request.base.package ++ inner, ⟨_, valid⟩⟩,
    (candidate_eq_ok_iff_of_ne later).2 ⟨inner, last, rfl, parted, String.toList_ofList⟩⟩

/-- A last part that a number makes a name of is empty or has the shape of an identifier. -/
theorem empty_or_shape_of_append {last digits : List Char} {name : Identifier}
    (simple : name.chars = last ++ '$' :: digits) :
    last = [] ∨ isIdentifierShape last = true := by
  cases last with
  | nil =>
      exact Or.inl rfl
  | cons first rest =>
      have shape := name.shape
      rw [simple, List.cons_append, isIdentifierShape, Bool.and_eq_true, List.all_append,
        Bool.and_eq_true] at shape
      rw [isIdentifierShape, Bool.and_eq_true]
      exact Or.inr ⟨shape.1, shape.2.1⟩

/-- What the documented names of a request are: in the package of the base type, the stem or
the stem with a number from two on. -/
def Names (request : Request) (name : TypeName) : Prop :=
  name.package = request.base.package ∧
    (name.simple.text = stem request.base request.feature ∨
      ∃ number, 2 ≤ number ∧
        name.simple.text = stem request.base request.feature ++ "$" ++ toString number)

theorem isIdentifier_stem_of_names {name : TypeName} (names : request.Names name) :
    AheadOfTime.isIdentifier (stem request.base request.feature) = true := by
  obtain ⟨-, whole | ⟨number, -, numbered⟩⟩ := names
  · rw [← whole]
    exact name.simple.valid
  · have simple : name.simple.chars = (stem request.base request.feature).toList ++
        '$' :: (toString number).toList := by
      rw [Identifier.chars, numbered, String.toList_append, String.toList_append,
        List.append_assoc]
      rfl
    exact isIdentifier_stem_of_shape
      ((empty_or_shape_of_append simple).resolve_left request.toList_stem_ne_nil)

end Request

/-! ## Stems that are no identifiers -/

/-- How a stem that is no identifier comes to a name after earlier requests. -/
inductive Misread (earlier : List Request) (request : Request) (name : TypeName) : Prop where
  /-- Its parts between the dots are identifiers: the front ones go to the package. -/
  | dotted {inner : List Identifier} {last : Identifier} (several : inner ≠ [])
      (parted : request.Parted inner last.chars)
      (package : name.package = request.base.package ++ inner)
      (simple : name.simple = last ∨
        ∃ number, 2 ≤ number ∧ name.simple.text = last.text ++ "$" ++ toString number)
  /-- Nothing or a reserved word follows its last dot. Such a stem is refused at first, and a
  number makes a name of it when it is asked for again. -/
  | mended {inner : List Identifier} {last : String} (several : inner ≠ [])
      (parted : request.Parted inner last.toList) (noName : last = "" ∨ last ∈ reservedWords)
      (asked : ∃ other ∈ earlier, other.key = request.key)
      (package : name.package = request.base.package ++ inner)
      (simple : ∃ number, 2 ≤ number ∧ name.simple.text = last ++ "$" ++ toString number)
  /-- Blanks at its end are dropped, as long as it was not asked for and the name is free. -/
  | trimmed {inner : List Identifier} {blanks : List Char} (nonempty : blanks ≠ [])
      (isBlank : ∀ c ∈ blanks, Unicode.isBlank c = true)
      (parted : request.Parted inner (name.simple.chars ++ blanks))
      (unasked : ∀ other ∈ earlier, other.key ≠ request.key)
      (free : name ∉ (after earlier).names)
      (package : name.package = request.base.package ++ inner)

section Misread

variable {earlier : List Request} {request : Request} {name : TypeName} {number : Nat}

theorem isIdentifierShape_of_mem_reservedWords {word : String} (reserved : word ∈ reservedWords) :
    isIdentifierShape word.toList = true :=
  List.all_eq_true.1 (by decide +kernel : (reservedWords.all fun word =>
    isIdentifierShape word.toList) = true) word reserved

/-- The last part of a stem that is itself a name is an identifier, if it holds no blanks. -/
theorem isIdentifier_of_candidate_one {inner : List Identifier} {last : List Char}
    (parted : request.Parted inner last) (marked : last = [] ∨ isIdentifierShape last = true)
    (reads : request.candidate 1 = .ok name) : isIdentifier (String.ofList last) = true := by
  obtain ⟨otherInner, blanks, -, isBlank, otherParted⟩ := Request.candidate_one_eq_ok_iff.1 reads
  obtain ⟨-, whole⟩ := parted.unique otherParted
  rcases marked with none | shape
  · rw [whole, List.append_eq_nil_iff] at none
    exact absurd none.1 name.simple.chars_ne_nil
  · have noBlank : blanks = [] := by
      refine List.eq_nil_iff_forall_not_mem.2 fun c member => ?_
      have part := isIdentifierPart_of_shape shape (whole ▸ List.mem_append_right _ member)
      have visible := not_isBlank_of_isIdentifierPart part
      rw [isBlank c member] at visible
      cases visible
    rw [whole, noBlank, List.append_nil, name.simple.ofList_chars]
    exact name.simple.valid

theorem misread_of_finds
    (invalid : isIdentifier (stem request.base request.feature) = false)
    (finds : Finds (after earlier).names request.candidate
      ((after earlier).counter request.key) (.ok name) number) :
    Misread earlier request name := by
  have asked := (records_after earlier).asked request
  have several : ∀ {inner : List Identifier} {last : List Char}, request.Parted inner last →
      last = [] ∨ isIdentifierShape last = true → inner ≠ [] := by
    rintro inner last parted marked rfl
    rw [parted.isIdentifier marked] at invalid
    cases invalid
  have above := finds.above
  by_cases first : number = 1
  · rw [first] at finds above
    obtain ⟨inner, blanks, package, isBlank, parted⟩ :=
      Request.candidate_one_eq_ok_iff.1 finds.answer_eq
    by_cases none : blanks = []
    · rw [none, List.append_nil] at parted
      exact .dotted (several parted (Or.inr name.simple.shape)) parted package (Or.inl rfl)
    · exact .trimmed none isBlank parted (asked.1 (Nat.lt_one_iff.1 above))
        (finds.not_mem_taken rfl) package
  · have two : 2 ≤ number := by omega
    obtain ⟨inner, last, package, parted, simple⟩ :=
      (Request.candidate_eq_ok_iff_of_ne first).1 finds.answer_eq
    have marked := Request.empty_or_shape_of_append simple
    have text : name.simple.text = String.ofList last ++ "$" ++ toString number := by
      rw [← String.toList_inj, String.toList_append, String.toList_append, String.toList_ofList,
        List.append_assoc]
      exact simple
    by_cases valid : isIdentifier (String.ofList last) = true
    · have partedLast : request.Parted inner (Identifier.chars ⟨_, valid⟩) := by
        rw [Identifier.chars, String.toList_ofList]
        exact parted
      exact .dotted (several parted marked) partedLast package (Or.inr ⟨number, two, text⟩)
    · have partedLast : request.Parted inner (String.ofList last).toList := by
        rw [String.toList_ofList]
        exact parted
      refine .mended (several parted marked) partedLast ?_ ?_ package ⟨number, two, text⟩
      · rcases marked with none | shape
        · rw [none]
          exact Or.inl rfl
        · rw [isIdentifier, String.toList_ofList, shape, Bool.true_and, Bool.not_eq_true',
            Bool.not_eq_false, List.contains_iff_mem] at valid
          exact Or.inr valid
      · -- Had it not been asked for, the search would have passed the stem itself.
        apply Classical.byContradiction
        intro unasked
        push Not at unasked
        have start := asked.2 unasked
        rw [start] at finds
        obtain ⟨other, -, reads⟩ := finds.exists_taken (Nat.zero_lt_one) two
        exact valid (isIdentifier_of_candidate_one parted marked reads)

theorem Misread.exists_found {found : Except TypeNameError TypeName}
    (misread : Misread earlier request name)
    (finds : Finds (after earlier).names request.candidate
      ((after earlier).counter request.key) found number) :
    ∃ other, found = .ok other := by
  have asked := (records_after earlier).asked request
  have above := finds.above
  have reads := finds.answer_eq
  cases misread with
  | @dotted inner last several parted package simple =>
      by_cases first : number = 1
      · rw [first] at reads
        refine ⟨⟨request.base.package ++ inner, last⟩, reads.symm.trans ?_⟩
        refine Request.candidate_one_eq_ok_iff.2 ⟨inner, [], rfl, List.forall_mem_nil _, ?_⟩
        rw [List.append_nil]
        exact parted
      · obtain ⟨other, named⟩ :=
          Request.exists_candidate_eq_ok first parted (Or.inr last.shape)
        exact ⟨other, reads.symm.trans named⟩
  | @mended inner last several parted noName wasAsked package simple =>
      have later : number ≠ 1 := by
        intro first
        rw [first, Nat.lt_one_iff] at above
        obtain ⟨other, member, same⟩ := wasAsked
        exact asked.1 above other member same
      have marked : last.toList = [] ∨ isIdentifierShape last.toList = true := by
        rcases noName with none | reserved
        · rw [none]
          exact Or.inl rfl
        · exact Or.inr (isIdentifierShape_of_mem_reservedWords reserved)
      obtain ⟨other, named⟩ := Request.exists_candidate_eq_ok later parted marked
      exact ⟨other, reads.symm.trans named⟩
  | @trimmed inner blanks nonempty isBlank parted unasked free package =>
      have named : request.candidate 1 = .ok name :=
        Request.candidate_one_eq_ok_iff.2 ⟨inner, blanks, package, isBlank, parted⟩
      rw [asked.2 unasked] at finds above
      have first : number = 1 := by
        apply Classical.byContradiction
        intro later
        obtain ⟨other, isTaken, readsOther⟩ :=
          finds.exists_taken Nat.zero_lt_one (by omega)
        rw [named] at readsOther
        rw [Except.ok.inj readsOther] at free
        exact free isTaken
      rw [first, named] at reads
      exact ⟨name, reads.symm⟩

end Misread

/-- Whatever was asked for before, a request whose stem is an identifier is granted a name of
the stem in the package of its base type. One whose stem is none is refused, but for the stems
that are misread; what these are granted is no name of the stem. -/
theorem answer_keeps_contract_unless_misread (earlier : List Request) (request : Request) :
    let found := ((after earlier).answer request).1
    (isIdentifier (stem request.base request.feature) = true →
      ∃ name, found = .ok name ∧ request.Names name) ∧
    (isIdentifier (stem request.base request.feature) = false →
      ((∃ name, found = .ok name) ↔ ∃ name, Misread earlier request name) ∧
      ∀ name, found = .ok name → Misread earlier request name ∧ ¬ request.Names name) := by
  intro found
  obtain ⟨result, number, finds, ends⟩ := exists_finds (after earlier) request
  have same : found = result := by
    simp only [found, ends]
  rw [same]
  refine ⟨fun valid => ?_, fun invalid => ⟨⟨?_, ?_⟩, ?_⟩⟩
  · obtain ⟨name, isNumber, granted, positive, package, simple, -⟩ :=
      (answered earlier request).first valid
    refine ⟨name, same.symm.trans granted, package, ?_⟩
    by_cases first : isNumber = 1
    · rw [first, numbered_one] at simple
      exact Or.inl simple
    · rw [numbered_of_ne first] at simple
      exact Or.inr ⟨isNumber, by omega, simple⟩
  · rintro ⟨name, rfl⟩
    exact ⟨name, misread_of_finds invalid finds⟩
  · rintro ⟨name, misread⟩
    exact misread.exists_found finds
  · rintro name rfl
    refine ⟨misread_of_finds invalid finds, fun names => ?_⟩
    rw [Request.isIdentifier_stem_of_names names] at invalid
    cases invalid

/-- A feature with a dot is granted a name in another package, and one that ends in a dot is
refused the first time only. -/
theorem dotted_features_break_contract :
    let app : TypeName := ⟨[{ text := "com" }, { text := "example" }], { text := "App" }⟩
    isIdentifier (stem app "X.Y") = false ∧
      answers [⟨app, "X.Y"⟩] = [.ok ⟨app.package ++ [{ text := "App__X" }], { text := "Y" }⟩] ∧
      isIdentifier (stem app "X.") = false ∧
      answers [⟨app, "X."⟩, ⟨app, "X."⟩] =
        [.error (.invalidSegment "" "com.example.App__X."),
          .ok ⟨app.package ++ [{ text := "App__X" }], { text := "$2" }⟩] := by
  decide +kernel

end IssuedNames

end AheadOfTime
