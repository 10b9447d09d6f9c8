import AheadOfTime.FileTree

/-!
# Where paths lead

The parts of a path lead from place to place, whatever stands there.  A path seen from
another one leads on from where that one leads, and the paths above a path lead to
places on its way.
-/

namespace AheadOfTime

namespace Text

theorem split_append_separator (separator : Char) (first rest : List Char) :
    split separator (first ++ separator :: rest) =
      split separator first ++ split separator rest := by
  induction first with
  | nil =>
      simp [split]
  | cons c first inductionHypothesis =>
      have nonempty := split_ne_nil separator first
      rw [List.cons_append, split, split]
      by_cases same : c = separator
      · rw [if_pos same, if_pos same, inductionHypothesis, List.cons_append]
      · rw [if_neg same, if_neg same, inductionHypothesis]
        cases found : split separator first with
        | nil =>
            exact absurd found nonempty
        | cons part parts =>
            rfl

theorem separator_not_mem_of_mem_split {separator : Char} {text part : List Char}
    (member : part ∈ split separator text) : separator ∉ part := by
  induction text generalizing part with
  | nil =>
      rw [split, List.mem_singleton] at member
      rw [member]
      exact List.not_mem_nil
  | cons c rest inductionHypothesis =>
      rw [split] at member
      by_cases same : c = separator
      · rw [if_pos same] at member
        rcases List.mem_cons.1 member with first | later
        · rw [first]
          exact List.not_mem_nil
        · exact inductionHypothesis later
      · rw [if_neg same] at member
        cases found : split separator rest with
        | nil =>
            exact absurd found (split_ne_nil separator rest)
        | cons next parts =>
            rw [found] at member inductionHypothesis
            rcases List.mem_cons.1 member with first | later
            · have absent : separator ∉ next := inductionHypothesis List.mem_cons_self
              rw [first, List.mem_cons, not_or]
              exact ⟨Ne.symm same, absent⟩
            · exact inductionHypothesis (List.mem_cons_of_mem _ later)

/-- Some first parts of a text, joined, split into themselves. -/
theorem split_join_of_prefix {separator : Char} {text : List Char} {parts : List (List Char)}
    (isPrefix : parts <+: split separator text) (nonempty : join [separator] parts ≠ []) :
    split separator (join [separator] parts) <+: split separator text := by
  have filled : parts ≠ [] := by
    rintro rfl
    exact nonempty rfl
  have absent : ∀ part ∈ parts, separator ∉ part := fun part member =>
    separator_not_mem_of_mem_split (isPrefix.subset member)
  rw [split_join filled absent]
  exact isPrefix

end Text

namespace Path

/-- Whether a place is on the way of a path, or where it leads. -/
def Visits (path : Path) (place : Place) : Prop :=
  ∃ parts, parts <+: path.parts ∧ place = placeFrom [] parts

theorem placeFrom_append (start : Place) (first second : List String) :
    placeFrom start (first ++ second) = placeFrom (placeFrom start first) second :=
  List.foldl_append

theorem visits_place (path : Path) : path.Visits path.place :=
  ⟨path.parts, List.prefix_refl _, rfl⟩

theorem visits_root (path : Path) : path.Visits [] :=
  ⟨[], List.nil_prefix, rfl⟩

theorem Visits.of_prefix {path longer : Path} (isPrefix : path.parts <+: longer.parts)
    {place : Place} (visits : path.Visits place) : longer.Visits place := by
  obtain ⟨parts, first, same⟩ := visits
  exact ⟨parts, first.trans isPrefix, same⟩

theorem stepPlace_of_isName (place : Place) {part : String} (isName : IsName part) :
    stepPlace place part = place ++ [part] := by
  obtain ⟨notEmpty, notHere, notUp⟩ := isName
  rw [stepPlace, if_neg (not_or.2 ⟨notEmpty, notHere⟩), if_neg notUp]

theorem placeFrom_of_isName (start : Place) {parts : List String}
    (names : ∀ part ∈ parts, IsName part) : placeFrom start parts = start ++ parts := by
  induction parts generalizing start with
  | nil =>
      exact (List.append_nil start).symm
  | cons part parts inductionHypothesis =>
      obtain ⟨isName, others⟩ := List.forall_mem_cons.1 names
      have later := inductionHypothesis (start ++ [part]) others
      rw [List.append_assoc] at later
      rw [placeFrom, List.foldl_cons, stepPlace_of_isName start isName]
      exact later

theorem parts_append (first second : String) :
    (⟨first ++ "/" ++ second⟩ : Path).parts =
      (⟨first⟩ : Path).parts ++ (⟨second⟩ : Path).parts := by
  have text : (first ++ "/" ++ second).toList = first.toList ++ '/' :: second.toList := by
    rw [String.toList_append, String.toList_append, List.append_assoc]
    rfl
  rw [parts, text, Text.split_append_separator, List.map_append]
  rfl

/-- The parts of a path seen from another one; an empty last part of that one is
dropped. -/
theorem parts_join (base : Path) {inner : Path} (relative : inner.isAbsolute = false) :
    ∃ front, (base.parts = front ∨ base.parts = front ++ [""]) ∧
      (base.join inner).parts = front ++ inner.parts := by
  rw [join, relative, if_neg Bool.false_ne_true]
  by_cases bare : (base.text.isEmpty || base.text.toList.getLast? == some '/') = true
  · rw [if_pos bare]
    rcases Bool.or_eq_true_iff.1 bare with isEmpty | ends
    · have noText : base.text = "" := String.isEmpty_iff.1 isEmpty
      refine ⟨[], .inr ?_, ?_⟩
      · rw [parts, noText]
        rfl
      · rw [noText, String.empty_append]
        rfl
    · obtain ⟨init, text⟩ := List.getLast?_eq_some_iff.1 (beq_iff_eq.1 ends)
      have whole : (base.text ++ inner.text).toList = init ++ '/' :: inner.text.toList := by
        rw [String.toList_append, text, List.append_assoc]
        rfl
      refine ⟨(Text.split '/' init).map String.ofList, .inr ?_, ?_⟩
      · rw [parts, text, Text.split_append_separator, List.map_append]
        rfl
      · rw [parts, whole, Text.split_append_separator, List.map_append]
        rfl
  · rw [if_neg bare]
    exact ⟨base.parts, .inl rfl, parts_append base.text inner.text⟩

theorem placeFrom_front {base : Path} {front : List String}
    (isFront : base.parts = front ∨ base.parts = front ++ [""]) :
    placeFrom [] front = base.place := by
  rcases isFront with same | same
  · rw [place, same]
  · rw [place, same, placeFrom_append]
    rfl

theorem place_join (base : Path) {inner : Path} (relative : inner.isAbsolute = false) :
    (base.join inner).place = placeFrom base.place inner.parts := by
  obtain ⟨front, isFront, parts⟩ := base.parts_join relative
  rw [place, parts, placeFrom_append, placeFrom_front isFront]

/-- What is on the way of a path seen from another one is on the way of that one, or comes
after where it leads. -/
theorem Visits.of_join {base inner : Path} (relative : inner.isAbsolute = false)
    {place : Place} (visits : (base.join inner).Visits place) :
    base.Visits place ∨
      ∃ parts, parts <+: inner.parts ∧ place = placeFrom base.place parts := by
  obtain ⟨front, isFront, joined⟩ := base.parts_join relative
  obtain ⟨parts, ⟨rest, whole⟩, same⟩ := visits
  rw [joined] at whole
  rcases List.append_eq_append_iff.1 whole with ⟨between, isFirst, -⟩ | ⟨later, isLater, isRest⟩
  · have inFront : parts <+: front := ⟨between, isFirst.symm⟩
    refine .inl ⟨parts, ?_, same⟩
    rcases isFront with base | base
    · rw [base]
      exact inFront
    · rw [base]
      exact inFront.trans (List.prefix_append _ _)
  · refine .inr ⟨later, ⟨rest, isRest.symm⟩, ?_⟩
    rw [same, isLater, placeFrom_append, placeFrom_front isFront]

/-! ## Paths of names -/

theorem parts_of_isFileName {name : String} (isFileName : IsFileName name) :
    (⟨name⟩ : Path).parts = [name] := by
  rw [parts, Text.split_of_not_mem isFileName.2, List.map_singleton, String.ofList_toList]

theorem isAbsolute_of_isFileName {name : String} (isFileName : IsFileName name) :
    (⟨name⟩ : Path).isAbsolute = false := by
  rw [isAbsolute, beq_eq_false_iff_ne]
  intro begins
  exact isFileName.2 (List.mem_of_head? begins)

theorem slash_not_mem_of_mem_parts {path : Path} {part : String} (member : part ∈ path.parts) :
    '/' ∉ part.toList := by
  obtain ⟨text, isText, same⟩ := List.mem_map.1 member
  rw [← same, String.toList_ofList]
  exact Text.separator_not_mem_of_mem_split isText

/-- The names that lead to where a path leads are names of files. -/
theorem isFileName_of_mem_place {path : Path} {name : String} (member : name ∈ path.place) :
    IsFileName name := by
  have slashless : ∀ part ∈ path.parts, '/' ∉ part.toList :=
    fun part isPart => slash_not_mem_of_mem_parts isPart
  have each : ∀ (parts : List String) (start : Place), (∀ part ∈ parts, '/' ∉ part.toList) →
      (∀ name ∈ start, IsFileName name) →
      ∀ name ∈ placeFrom start parts, IsFileName name := by
    intro parts
    induction parts with
    | nil =>
        exact fun start _ named => named
    | cons part parts inductionHypothesis =>
        intro start slashless named
        obtain ⟨here, later⟩ := List.forall_mem_cons.1 slashless
        refine inductionHypothesis (stepPlace start part) later ?_
        rw [stepPlace]
        split
        · exact named
        · rename_i counts
          split
          · exact fun name member => named name (List.dropLast_subset _ member)
          · rename_i notUp
            have isFileName : IsFileName part :=
              ⟨⟨fun empty => counts (.inl empty), fun dot => counts (.inr dot), notUp⟩, here⟩
            exact List.forall_mem_append.2
              ⟨named, List.forall_mem_singleton.2 isFileName⟩
  exact each path.parts [] slashless (List.forall_mem_nil _) name member

theorem place_join_name (base : Path) {name : String} (isFileName : IsFileName name) :
    (base.join ⟨name⟩).place = base.place ++ [name] := by
  rw [place_join base (isAbsolute_of_isFileName isFileName), parts_of_isFileName isFileName]
  exact stepPlace_of_isName _ isFileName.1

theorem isAbsolute_of_parts {path : Path} {name : String} {rest : List String}
    (parts : path.parts = name :: rest) (isFileName : IsFileName name) :
    path.isAbsolute = false := by
  rw [isAbsolute, beq_eq_false_iff_ne]
  intro begins
  obtain ⟨others, text⟩ := List.head?_eq_some_iff.1 begins
  have first : path.parts = "" :: (Text.split '/' others).map String.ofList := by
    rw [Path.parts, text, Text.split, if_pos rfl, List.map_cons]
  rw [parts] at first
  exact isFileName.1.1 (List.cons.inj first).1

theorem join_empty {inner : Path} (relative : inner.isAbsolute = false) :
    (⟨""⟩ : Path).join inner = inner := by
  have bare : ("".isEmpty || "".toList.getLast? == some '/') = true := by decide
  rw [join, relative, if_neg Bool.false_ne_true, if_pos bare, String.empty_append]

theorem parts_foldl_join {base : Path} {names : List String}
    (filled : ∀ part ∈ base.parts, part ≠ "") (each : ∀ name ∈ names, IsFileName name) :
    (names.foldl (fun path name => path.join ⟨name⟩) base).parts = base.parts ++ names := by
  induction names generalizing base with
  | nil =>
      exact (List.append_nil _).symm
  | cons name names inductionHypothesis =>
      obtain ⟨isFileName, others⟩ := List.forall_mem_cons.1 each
      obtain ⟨front, isFront, joined⟩ := base.parts_join (isAbsolute_of_isFileName isFileName)
      have whole : base.parts = front := by
        rcases isFront with whole | ended
        · exact whole
        · refine absurd rfl (filled "" ?_)
          rw [ended]
          exact List.mem_append_right _ List.mem_cons_self
      rw [parts_of_isFileName isFileName, ← whole] at joined
      have filledAfter : ∀ part ∈ (base.join ⟨name⟩).parts, part ≠ "" := by
        rw [joined]
        exact List.forall_mem_append.2
          ⟨filled, List.forall_mem_singleton.2 isFileName.1.1⟩
      rw [List.foldl_cons, inductionHypothesis filledAfter others, joined, List.append_assoc]
      rfl

/-- The parts of the path through names are the names. -/
theorem parts_ofNames {names : List String} (nonempty : names ≠ [])
    (each : ∀ name ∈ names, IsFileName name) : (ofNames names).parts = names := by
  obtain ⟨first, rest, rfl⟩ := List.exists_cons_of_ne_nil nonempty
  obtain ⟨isFileName, others⟩ := List.forall_mem_cons.1 each
  have parts := parts_of_isFileName isFileName
  have filled : ∀ part ∈ (⟨first⟩ : Path).parts, part ≠ "" := by
    rw [parts]
    exact List.forall_mem_singleton.2 isFileName.1.1
  rw [ofNames, List.foldl_cons, join_empty (isAbsolute_of_isFileName isFileName),
    parts_foldl_join filled others, parts]
  rfl

theorem isAbsolute_ofNames {names : List String} (nonempty : names ≠ [])
    (each : ∀ name ∈ names, IsFileName name) : (ofNames names).isAbsolute = false := by
  obtain ⟨first, rest, rfl⟩ := List.exists_cons_of_ne_nil nonempty
  exact isAbsolute_of_parts (parts_ofNames nonempty each) (each first List.mem_cons_self)

theorem dropSilentEnd_eq (text : List Char) :
    ∃ kept, kept <+: Text.split '/' text ∧ dropSilentEnd text = Text.join ['/'] kept := by
  refine ⟨((Text.split '/' text).reverse.dropWhile isSilent).reverse, ?_, rfl⟩
  rw [← List.reverse_suffix, List.reverse_reverse]
  exact List.dropWhile_suffix _

theorem split_dropSilentEnd {text : List Char} (nonempty : dropSilentEnd text ≠ []) :
    Text.split '/' (dropSilentEnd text) <+: Text.split '/' text := by
  obtain ⟨kept, isPrefix, same⟩ := dropSilentEnd_eq text
  rw [same] at nonempty ⊢
  exact Text.split_join_of_prefix isPrefix nonempty

theorem visits_silent {path : Path} (silent : ∀ part ∈ path.parts, part = "" ∨ part = ".")
    {place : Place} (visits : path.Visits place) : place = [] := by
  obtain ⟨parts, isPrefix, rfl⟩ := visits
  have each : ∀ part ∈ parts, part = "" ∨ part = "." :=
    fun part member => silent part (isPrefix.subset member)
  clear isPrefix
  induction parts with
  | nil =>
      rfl
  | cons part parts inductionHypothesis =>
      obtain ⟨here, later⟩ := List.forall_mem_cons.1 each
      have stays : stepPlace [] part = [] := if_pos here
      rw [placeFrom, List.foldl_cons, stays]
      exact inductionHypothesis later

/-- What is left of a text above its last part that counts begins as the text does. -/
theorem split_above {text : List Char}
    (filled : dropSilentEnd
      (Text.join ['/'] (Text.split '/' (dropSilentEnd text)).dropLast) ≠ []) :
    Text.split '/' (dropSilentEnd
      (Text.join ['/'] (Text.split '/' (dropSilentEnd text)).dropLast)) <+:
        Text.split '/' text := by
  have shortened : Text.join ['/'] (Text.split '/' (dropSilentEnd text)).dropLast ≠ [] := by
    intro empty
    rw [empty] at filled
    exact filled rfl
  have dropped : dropSilentEnd text ≠ [] := by
    intro empty
    rw [empty] at shortened
    exact shortened rfl
  have first := split_dropSilentEnd filled
  have second := Text.split_join_of_prefix (List.dropLast_prefix _) shortened
  have third := split_dropSilentEnd dropped
  exact (first.trans second).trans third

/-- The path above a path leads to places on its way. -/
theorem Visits.of_parent {path parent : Path} (above : path.parent? = some parent)
    {place : Place} (visits : parent.Visits place) : path.Visits place := by
  have silently : (∀ part ∈ parent.parts, part = "" ∨ part = ".") → path.Visits place := by
    intro silent
    rw [visits_silent silent visits]
    exact path.visits_root
  unfold parent? at above
  split at above
  · cases above
  · cases above
  · cases above
    exact silently (by decide)
  · simp only at above
    split at above
    · split at above
      · cases above
        exact silently (by decide)
      · split at above
        · cases above
          exact silently (by decide)
        · cases above
          exact silently (by decide)
    · rename_i filled
      have isPrefix := split_above fun empty => filled (List.isEmpty_iff.2 empty)
      refine visits.of_prefix ?_
      rw [← Option.some.inj above, parts, parts, String.toList_ofList]
      exact isPrefix.map String.ofList

/-- Whether a place is on the way of the path above a path, or where that one leads. -/
def VisitsAbove (path : Path) (place : Place) : Prop :=
  ∃ parent, path.parent? = some parent ∧ parent.Visits place

theorem VisitsAbove.visits {path : Path} {place : Place} (above : path.VisitsAbove place) :
    path.Visits place := by
  obtain ⟨parent, isParent, visits⟩ := above
  exact Visits.of_parent isParent visits

end Path

end AheadOfTime
