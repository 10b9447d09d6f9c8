import Mathlib.Data.List.Lex
import Mathlib.Data.List.Sort
import Mathlib.Data.String.Basic
import AheadOfTime.Collection
import AheadOfTime.Proofs.Path
import AheadOfTime.Proofs.TypeName

/-!
# Components of paths

The components of a path seen from another one are those of that one, followed by its own.
Listings write a directory with other text but with the same components, unless it begins
with a dot, and among paths that begin alike the names decide the order.
-/

namespace AheadOfTime

namespace Path

theorem ext_of_parts {first second : Path} (same : first.parts = second.parts) :
    first = second := by
  have texts : Text.split '/' first.text.toList = Text.split '/' second.text.toList := by
    have mapped := congrArg (List.map String.toList) same
    simpa [parts, Function.comp_def] using mapped
  have chars := congrArg (Text.join ['/']) texts
  rw [Text.join_split, Text.join_split] at chars
  cases first
  cases second
  rw [String.toList_inj] at chars
  exact congrArg Path.mk chars

theorem parts_intercalate {names : List String} (nonempty : names ≠ [])
    (slashless : ∀ name ∈ names, '/' ∉ name.toList) :
    (⟨"/".intercalate names⟩ : Path).parts = names := by
  have slash : "/".toList = ['/'] := by decide
  rw [parts, String.toList_intercalate, slash, Text.intercalate_eq_join, Text.split_join]
  · rw [List.map_map]
    have same : (String.ofList ∘ String.toList) = id := funext fun name => String.ofList_toList
    rw [same, List.map_id]
  · exact fun empty => nonempty (List.map_eq_nil_iff.1 empty)
  · exact List.forall_mem_map.2 slashless

/-- The path that names spell as components is the path through the names. -/
theorem ofComponents_names {names : List String} (nonempty : names ≠ [])
    (each : ∀ name ∈ names, IsFileName name) :
    ofComponents (names.map Component.name) = ofNames names := by
  have texts : (names.map Component.name).map Component.text = names := by
    rw [List.map_map]
    exact List.map_id names
  have spelled : ofComponents (names.map Component.name) = ⟨"/".intercalate names⟩ := by
    obtain ⟨first, rest, rfl⟩ := List.exists_cons_of_ne_nil nonempty
    exact congrArg (fun spellings => Path.mk ("/".intercalate spellings)) texts
  apply ext_of_parts
  rw [spelled, parts_intercalate nonempty fun name member => (each name member).2,
    parts_ofNames nonempty each]

/-- What stands between a path and one that is seen from it. -/
def separator (path : Path) : String :=
  if path.text.isEmpty || path.text.toList.getLast? == some '/' then "" else "/"

theorem text_join (base : Path) {inner : Path} (relative : inner.isAbsolute = false) :
    (base.join inner).text = base.text ++ base.separator ++ inner.text := by
  rw [join, separator, relative, if_neg Bool.false_ne_true]
  split
  · rw [String.append_empty]
  · rfl

theorem head?_append_of_ne_nil {first : List Char} (nonempty : first ≠ []) (rest : List Char) :
    (first ++ rest).head? = first.head? := by
  obtain ⟨c, tail, rfl⟩ := List.exists_cons_of_ne_nil nonempty
  rfl

theorem isAbsolute_append {text : String} (nonempty : text ≠ "") (rest : String) :
    (⟨text ++ rest⟩ : Path).isAbsolute = (⟨text⟩ : Path).isAbsolute := by
  have chars : text.toList ≠ [] := fun empty => nonempty (String.toList_eq_nil_iff.1 empty)
  rw [isAbsolute, isAbsolute, String.toList_append, head?_append_of_ne_nil chars]

/-- A path seen from another one begins as that one does. -/
theorem isAbsolute_join {base inner : Path} (nonempty : base.text ≠ "")
    (relative : inner.isAbsolute = false) :
    (base.join inner).isAbsolute = base.isAbsolute := by
  have begins := isAbsolute_append nonempty (base.separator ++ inner.text)
  rw [← String.append_assoc, ← base.text_join relative] at begins
  exact begins

theorem separator_append {path : Path} (nonempty : path.text ≠ "") (front : String) :
    (⟨front ++ path.text⟩ : Path).separator = path.separator := by
  have chars : path.text.toList ≠ [] := fun empty => nonempty (String.toList_eq_nil_iff.1 empty)
  have last : (front.toList ++ path.text.toList).getLast? = path.text.toList.getLast? :=
    List.getLast?_append_of_ne_nil _ chars
  have filled : path.text.isEmpty = false := by
    rw [Bool.eq_false_iff]
    exact fun isEmpty => nonempty (String.isEmpty_iff.1 isEmpty)
  have filledToo : (front ++ path.text).isEmpty = false := by
    rw [Bool.eq_false_iff]
    intro isEmpty
    have empty := String.append_eq_empty_iff.1 (String.isEmpty_iff.1 isEmpty)
    exact nonempty empty.2
  rw [separator, separator, filled, filledToo, String.toList_append, last]

theorem join_join (base : Path) {first second : Path} (nonempty : first.text ≠ "")
    (relative : first.isAbsolute = false) (relativeToo : second.isAbsolute = false) :
    (base.join first).join second = base.join (first.join second) := by
  have inner : (first.join second).isAbsolute = false := by
    rw [isAbsolute_join nonempty relativeToo]
    exact relative
  have between : (base.join first).separator = first.separator := by
    have ends := separator_append nonempty (base.text ++ base.separator)
    rw [← base.text_join relative] at ends
    exact ends
  have texts : ((base.join first).join second).text = (base.join (first.join second)).text := by
    rw [text_join _ relativeToo, between, text_join base relative, text_join base inner,
      text_join first relativeToo]
    simp only [String.append_assoc]
  cases left : (base.join first).join second
  cases right : base.join (first.join second)
  rw [left, right] at texts
  exact congrArg Path.mk texts

theorem join_of_isAbsolute (base : Path) {inner : Path} (absolute : inner.isAbsolute = true) :
    base.join inner = inner := by
  rw [join, absolute, if_pos rfl]

/-- A path seen from an absolute one is absolute. -/
theorem isAbsolute_join_of_isAbsolute {base : Path} (absolute : base.isAbsolute = true)
    (inner : Path) : (base.join inner).isAbsolute = true := by
  cases innerAbsolute : inner.isAbsolute with
  | true =>
      rw [join_of_isAbsolute base innerAbsolute]
      exact innerAbsolute
  | false =>
      have nonempty : base.text ≠ "" := by
        intro empty
        rw [isAbsolute, empty] at absolute
        cases absolute
      rw [isAbsolute_join nonempty innerAbsolute]
      exact absolute

/-- The empty path only adds the slash that another path would need. -/
theorem join_empty_join (base : Path) {inner : Path} (relative : inner.isAbsolute = false) :
    (base.join ⟨""⟩).join inner = base.join inner := by
  by_cases ended : base.text.isEmpty || base.text.toList.getLast? == some '/'
  · have same : base.join ⟨""⟩ = base := by
      rw [join, if_neg (by decide), if_pos ended]
      exact congrArg Path.mk String.append_empty
    rw [same]
  · have slashed : base.join ⟨""⟩ = ⟨base.text ++ "/"⟩ := by
      rw [join, if_neg (by decide), if_neg ended]
      exact congrArg Path.mk String.append_empty
    have ends : (base.text ++ "/").toList.getLast? == some '/' := by
      rw [String.toList_append]
      exact beq_iff_eq.2 List.getLast?_concat
    rw [slashed, join, join, relative, if_neg Bool.false_ne_true, if_neg Bool.false_ne_true,
      if_neg ended, ends, if_pos (Bool.or_true _)]

/-- Seeing a path from one directory and then from another is seeing it from the directory
that the first is from the second. -/
theorem join_assoc (base first second : Path) :
    (base.join first).join second = base.join (first.join second) := by
  cases secondAbsolute : second.isAbsolute with
  | true =>
      rw [join_of_isAbsolute _ secondAbsolute, join_of_isAbsolute first secondAbsolute,
        join_of_isAbsolute base secondAbsolute]
  | false =>
      cases firstAbsolute : first.isAbsolute with
      | true =>
          rw [join_of_isAbsolute base firstAbsolute,
            join_of_isAbsolute base (isAbsolute_join_of_isAbsolute firstAbsolute second)]
      | false =>
          by_cases empty : first = ⟨""⟩
          · rw [empty, join_empty_join base secondAbsolute, join_empty secondAbsolute]
          · have nonempty : first.text ≠ "" := fun text => empty (congrArg Path.mk text)
            exact join_join base nonempty firstAbsolute secondAbsolute

theorem join_comp_join (outer inner : Path) :
    outer.join ∘ inner.join = (outer.join inner).join :=
  funext fun path => (join_assoc outer inner path).symm

/-- Whether a path is the way that listings write it: it has text and does not begin with
a dot. -/
def IsListable (path : Path) : Prop :=
  path.text ≠ "" ∧ path.parts.head? ≠ some "."

instance (path : Path) : Decidable path.IsListable :=
  inferInstanceAs (Decidable (_ ∧ _))

theorem parts_ne_nil (path : Path) : path.parts ≠ [] :=
  fun empty => Text.split_ne_nil '/' path.text.toList (List.map_eq_nil_iff.1 empty)

theorem head?_parts_of_isAbsolute {path : Path} (absolute : path.isAbsolute = true) :
    path.parts.head? = some "" := by
  obtain ⟨rest, text⟩ := List.head?_eq_some_iff.1 (beq_iff_eq.1 absolute)
  rw [parts, text, Text.split, if_pos rfl]
  rfl

/-- A path with text that begins with an empty part begins at the root. -/
theorem isAbsolute_of_head?_parts {path : Path} (nonempty : path.text ≠ "")
    (first : path.parts.head? = some "") : path.isAbsolute = true := by
  have chars : path.text.toList ≠ [] := fun empty => nonempty (String.toList_eq_nil_iff.1 empty)
  obtain ⟨c, rest, text⟩ := List.exists_cons_of_ne_nil chars
  rw [parts, text, Text.split] at first
  by_cases slash : c = '/'
  · rw [isAbsolute, text, slash]
    rfl
  · rw [if_neg slash] at first
    cases found : Text.split '/' rest with
    | nil =>
        exact absurd found (Text.split_ne_nil '/' rest)
    | cons part parts =>
        rw [found, List.map_cons, List.head?_cons] at first
        have empty := String.ofList_eq_empty_iff.1 (Option.some.inj first)
        cases empty

/-- The components of a path that does not begin with a dot. -/
theorem components_eq {path : Path} (dotless : path.parts.head? ≠ some ".") :
    path.components =
      (if path.isAbsolute then [.root] else []) ++ path.parts.filterMap componentOf? := by
  cases found : path.parts with
  | nil =>
      exact absurd found path.parts_ne_nil
  | cons first rest =>
      rw [found, List.head?_cons] at dotless
      have notDot : first ≠ "." := fun dot => dotless (congrArg some dot)
      rw [components, found]
      cases absolute : path.isAbsolute with
      | true =>
          have begins := head?_parts_of_isAbsolute absolute
          rw [found, List.head?_cons] at begins
          have empty : first = "" := Option.some.inj begins
          rw [empty]
          rfl
      | false =>
          simp only [Bool.false_eq_true, if_false, if_neg notDot, List.nil_append,
            List.filterMap_cons]
          cases componentOf? first with
          | none =>
              rfl
          | some component =>
              rfl

def start (path : Path) : List Component :=
  if path.isAbsolute then [.root]
  else if path.parts.head? = some "." then [.here]
  else []

def inner (path : Path) : List Component :=
  path.parts.filterMap componentOf?

theorem components_eq_start_append (path : Path) : path.components = path.start ++ path.inner := by
  by_cases dot : path.parts.head? = some "."
  · obtain ⟨rest, whole⟩ := List.head?_eq_some_iff.1 dot
    have relative : path.isAbsolute = false := by
      rw [Bool.eq_false_iff]
      intro absolute
      rw [head?_parts_of_isAbsolute absolute] at dot
      exact absurd (Option.some.inj dot) (by decide)
    rw [start, inner, relative, if_neg Bool.false_ne_true, if_pos dot, components, whole,
      relative]
    rfl
  · rw [components_eq dot, start, if_neg dot]
    rfl

/-- Paths with text begin alike if their first parts are the same. -/
theorem start_eq_of_head? {first second : Path} (nonempty : first.text ≠ "")
    (nonemptyToo : second.text ≠ "") (same : first.parts.head? = second.parts.head?) :
    first.start = second.start := by
  have absolute : first.isAbsolute = second.isAbsolute := by
    rw [Bool.eq_iff_iff]
    constructor
    · intro absolute
      exact isAbsolute_of_head?_parts nonemptyToo
        (same.symm.trans (head?_parts_of_isAbsolute absolute))
    · intro absolute
      exact isAbsolute_of_head?_parts nonempty (same.trans (head?_parts_of_isAbsolute absolute))
  rw [start, start, absolute, same]

theorem componentOf?_of_isName {part : String} (isName : IsName part) :
    componentOf? part = some (.name part) := by
  obtain ⟨notEmpty, notHere, notUp⟩ := isName
  rw [componentOf?, if_neg notEmpty, if_neg notHere, if_neg notUp]

theorem filterMap_componentOf?_names {names : List String}
    (each : ∀ name ∈ names, IsName name) :
    names.filterMap componentOf? = names.map Component.name := by
  induction names with
  | nil =>
      rfl
  | cons name names inductionHypothesis =>
      obtain ⟨isName, others⟩ := List.forall_mem_cons.1 each
      rw [List.filterMap_cons, componentOf?_of_isName isName, inductionHypothesis others]
      rfl

theorem here_not_mem_filterMap (parts : List String) :
    Component.here ∉ parts.filterMap componentOf? := by
  intro member
  obtain ⟨part, -, isHere⟩ := List.mem_filterMap.1 member
  unfold componentOf? at isHere
  split at isHere
  · cases isHere
  · split at isHere
    · cases isHere
    · split at isHere
      · cases isHere
      · cases isHere

section Names

variable {names : List String}

/-- The first part of a path through names is the first one of the directory, or a
name. -/
theorem head?_parts_join_names {base : Path} (dotless : base.parts.head? ≠ some ".")
    (nonempty : names ≠ []) (each : ∀ name ∈ names, IsFileName name) :
    (base.join (ofNames names)).parts.head? ≠ some "." := by
  obtain ⟨front, isFront, joined⟩ := base.parts_join (isAbsolute_ofNames nonempty each)
  rw [joined, parts_ofNames nonempty each]
  cases front with
  | nil =>
      obtain ⟨name, rest, rfl⟩ := List.exists_cons_of_ne_nil nonempty
      intro begins
      exact (each name List.mem_cons_self).1.2.1 (Option.some.inj begins)
  | cons first front =>
      rcases isFront with same | same
      · rw [same] at dotless
        exact dotless
      · rw [same] at dotless
        exact dotless

/-- The relative path through names has the names as its components. -/
theorem components_ofNames (nonempty : names ≠ [])
    (each : ∀ name ∈ names, IsFileName name) :
    (ofNames names).components = names.map Component.name := by
  have relative := isAbsolute_ofNames nonempty each
  have dotless : ((⟨""⟩ : Path).join (ofNames names)).parts.head? ≠ some "." :=
    head?_parts_join_names (by decide) nonempty each
  rw [join_empty relative] at dotless
  rw [components_eq dotless, relative, parts_ofNames nonempty each,
    filterMap_componentOf?_names fun name member => (each name member).1]
  rfl

/-- Names seen from a directory come after its components. -/
theorem components_join_names (base : Path) (nonempty : names ≠ [])
    (each : ∀ name ∈ names, IsFileName name) :
    (base.join (ofNames names)).components = base.components ++ names.map Component.name := by
  have relative := isAbsolute_ofNames nonempty each
  by_cases empty : base.text = ""
  · have isEmpty : base = ⟨""⟩ := ext_of_parts (congrArg (fun text => Path.parts ⟨text⟩) empty)
    rw [isEmpty, join_empty relative]
    exact components_ofNames nonempty each
  obtain ⟨front, isFront, joined⟩ := base.parts_join relative
  have filled : front ≠ [] := by
    rintro rfl
    rcases isFront with none | single
    · exact base.parts_ne_nil none
    · exact empty (congrArg text (ext_of_parts single : base = ⟨""⟩))
  have sameHead : (base.join (ofNames names)).parts.head? = base.parts.head? := by
    rw [joined, List.head?_append_of_ne_nil _ filled]
    rcases isFront with same | same
    · rw [same]
    · rw [same, List.head?_append_of_ne_nil _ filled]
  have sameInner : front.filterMap componentOf? = base.inner := by
    rw [inner]
    rcases isFront with same | same
    · rw [same]
    · rw [same, List.filterMap_append]
      exact (List.append_nil _).symm
  have nonemptyToo : (base.join (ofNames names)).text ≠ "" := by
    rw [text_join base relative, String.append_assoc]
    exact fun none => empty (String.append_eq_empty_iff.1 none).1
  rw [components_eq_start_append, start_eq_of_head? nonemptyToo empty sameHead, inner, joined,
    parts_ofNames nonempty each, List.filterMap_append, sameInner,
    filterMap_componentOf?_names fun name member => (each name member).1,
    components_eq_start_append base, List.append_assoc]

end Names

/-! ## Listed directories -/

theorem filterMap_componentOf?_filter (parts : List String) :
    (parts.filter (· ≠ "")).filterMap componentOf? = parts.filterMap componentOf? := by
  induction parts with
  | nil =>
      rfl
  | cons part parts inductionHypothesis =>
      by_cases empty : part = ""
      · rw [empty]
        exact inductionHypothesis
      · rw [List.filter_cons_of_pos (by simpa using empty), List.filterMap_cons,
          List.filterMap_cons, inductionHypothesis]

theorem isListable_of_isAbsolute {path : Path} (absolute : path.isAbsolute = true) :
    path.IsListable := by
  constructor
  · intro empty
    rw [isAbsolute, empty] at absolute
    cases absolute
  · rw [head?_parts_of_isAbsolute absolute]
    decide

theorem slash_not_mem_of_mem_filter {path : Path} :
    ∀ part ∈ path.parts.filter (· ≠ ""), '/' ∉ part.toList :=
  fun _ member => slash_not_mem_of_mem_parts (List.mem_of_mem_filter member)

theorem parts_listed_of_isAbsolute {path : Path} (absolute : path.isAbsolute = true) :
    path.listed.isAbsolute = true ∧
      (path.listed.parts = "" :: path.parts.filter (· ≠ "") ∨
        path.listed.parts = ["", ""] ∧ path.parts.filter (· ≠ "") = []) := by
  have begins : path.listed.text.toList =
      '/' :: ("/".intercalate (path.parts.filter (· ≠ ""))).toList := by
    rw [listed, absolute]
    exact String.toList_append
  have split : path.listed.parts =
      "" :: (⟨"/".intercalate (path.parts.filter (· ≠ ""))⟩ : Path).parts := by
    rw [parts, begins, Text.split, if_pos rfl]
    rfl
  constructor
  · rw [isAbsolute, begins]
    rfl
  · by_cases filled : path.parts.filter (· ≠ "") = []
    · rw [split, filled]
      exact .inr ⟨rfl, rfl⟩
    · rw [split, parts_intercalate filled slash_not_mem_of_mem_filter]
      exact .inl rfl

/-- The first part of a relative path that is listable. -/
theorem exists_parts_of_relative {path : Path} (listable : path.IsListable)
    (relative : path.isAbsolute = false) :
    ∃ part rest, path.parts = part :: rest ∧ part ≠ "" ∧ part ≠ "." := by
  obtain ⟨part, rest, whole⟩ := List.exists_cons_of_ne_nil path.parts_ne_nil
  have begins : path.parts.head? = some part := by
    rw [whole]
    rfl
  refine ⟨part, rest, whole, ?_, ?_⟩
  · intro empty
    rw [empty] at begins
    rw [isAbsolute_of_head?_parts listable.1 begins] at relative
    cases relative
  · intro dot
    rw [dot] at begins
    exact listable.2 begins

theorem parts_listed_of_relative {path : Path} (listable : path.IsListable)
    (relative : path.isAbsolute = false) :
    path.listed.isAbsolute = false ∧ path.listed.IsListable ∧
      path.listed.parts = path.parts.filter (· ≠ "") := by
  obtain ⟨part, rest, whole, filled, notDot⟩ := exists_parts_of_relative listable relative
  have kept : path.parts.filter (· ≠ "") = part :: rest.filter (· ≠ "") := by
    rw [whole]
    exact List.filter_cons_of_pos (by simpa using filled)
  have written : path.listed = ⟨"/".intercalate (path.parts.filter (· ≠ ""))⟩ := by
    rw [listed, relative, kept, List.dropWhile_cons_of_neg (by simpa using notDot)]
    rfl
  have split : path.listed.parts = path.parts.filter (· ≠ "") := by
    rw [written]
    refine parts_intercalate ?_ slash_not_mem_of_mem_filter
    rw [kept]
    exact List.cons_ne_nil _ _
  have begins : path.listed.parts.head? = some part := by
    rw [split, kept]
    rfl
  refine ⟨?_, ⟨?_, ?_⟩, split⟩
  · rw [Bool.eq_false_iff]
    intro absolute
    rw [head?_parts_of_isAbsolute absolute] at begins
    exact filled (Option.some.inj begins).symm
  · intro empty
    rw [parts, empty] at begins
    exact filled (Option.some.inj begins).symm
  · rw [begins]
    exact fun dot => notDot (Option.some.inj dot)

/-- The parts of a directory as listings write it. -/
theorem parts_listed {path : Path} (listable : path.IsListable) :
    path.listed.isAbsolute = path.isAbsolute ∧ path.listed.IsListable ∧
      (path.listed.parts = path.parts.filter (· ≠ "") ∨
        path.listed.parts = "" :: path.parts.filter (· ≠ "") ∨
        path.listed.parts = ["", ""] ∧ path.parts.filter (· ≠ "") = []) := by
  cases absolute : path.isAbsolute with
  | true =>
      obtain ⟨absoluteToo, split⟩ := parts_listed_of_isAbsolute absolute
      exact ⟨absoluteToo, isListable_of_isAbsolute absoluteToo, .inr split⟩
  | false =>
      obtain ⟨relative, listableToo, split⟩ := parts_listed_of_relative listable absolute
      exact ⟨relative, listableToo, .inl split⟩

/-- Listings write a directory with other text, but with its components. -/
theorem components_listed {path : Path} (listable : path.IsListable) :
    path.listed.components = path.components := by
  obtain ⟨absolute, listableToo, split⟩ := parts_listed listable
  rw [components_eq listableToo.2, components_eq listable.2, absolute,
    ← filterMap_componentOf?_filter path.parts]
  rcases split with same | same | ⟨same, none⟩
  · rw [same]
  · rw [same]
    rfl
  · rw [same, none]
    rfl

theorem placeFrom_filter (start : Place) (parts : List String) :
    placeFrom start (parts.filter (· ≠ "")) = placeFrom start parts := by
  induction parts generalizing start with
  | nil =>
      rfl
  | cons part parts inductionHypothesis =>
      by_cases empty : part = ""
      · rw [empty]
        exact inductionHypothesis start
      · rw [List.filter_cons_of_pos (by simpa using empty)]
        exact inductionHypothesis (stepPlace start part)

/-- Listings write a directory so that it leads to the same place. -/
theorem place_listed {path : Path} (listable : path.IsListable) :
    path.listed.place = path.place := by
  obtain ⟨-, -, split⟩ := parts_listed listable
  rw [place, place, ← placeFrom_filter [] path.parts]
  rcases split with same | same | ⟨same, none⟩
  · rw [same]
  · rw [same]
    rfl
  · rw [same, none]
    rfl

/-- A directory that begins with a dot is written without it. -/
theorem head?_parts_listed (path : Path) : path.listed.parts.head? ≠ some "." := by
  by_cases listable : path.IsListable
  · exact (parts_listed listable).2.1.2
  · cases absolute : path.isAbsolute with
    | true =>
        have begins := head?_parts_of_isAbsolute absolute
        have nonempty : path.text ≠ "" := by
          intro empty
          rw [isAbsolute, empty] at absolute
          cases absolute
        refine absurd ⟨nonempty, ?_⟩ listable
        rw [begins]
        decide
    | false =>
        have written : path.listed =
            ⟨"/".intercalate ((path.parts.filter (· ≠ "")).dropWhile (· = "."))⟩ := by
          rw [listed, absolute]
          rfl
        cases rest : (path.parts.filter (· ≠ "")).dropWhile (· = ".") with
        | nil =>
            rw [written, rest]
            decide
        | cons part others =>
            have sub : part :: others <:+ path.parts.filter (· ≠ "") := by
              rw [← rest]
              exact List.dropWhile_suffix _
            have slashless : ∀ name ∈ part :: others, '/' ∉ name.toList := fun name member =>
              slash_not_mem_of_mem_parts (List.mem_of_mem_filter (sub.subset member))
            have notDot : part ≠ "." := by
              have first := List.head?_dropWhile_not (· = ".") (path.parts.filter (· ≠ ""))
              rw [rest] at first
              simpa using first
            rw [written, rest, parts_intercalate (List.cons_ne_nil _ _) slashless]
            exact fun dot => notDot (Option.some.inj dot)

theorem stripComponents?_append (base rest : List Component) :
    stripComponents? (base ++ rest) base = some rest := by
  induction base with
  | nil =>
      cases rest with
      | nil =>
          rfl
      | cons first rest =>
          rfl
  | cons first base inductionHypothesis =>
      rw [List.cons_append, stripComponents?, if_pos rfl]
      exact inductionHypothesis

theorem stripComponents?_here {components : List Component} (absent : .here ∉ components)
    (base : List Component) : stripComponents? components (.here :: base) = none := by
  cases components with
  | nil =>
      rfl
  | cons first rest =>
      have different : first ≠ .here := by
        intro same
        rw [same] at absent
        exact absent List.mem_cons_self
      rw [stripComponents?, if_neg different]

section Names

variable {names : List String}

/-- A file found below a directory goes to the same names below the destination. -/
theorem rebase?_listed {directory : Path} (listable : directory.IsListable)
    (destination : Path) (nonempty : names ≠ []) (each : ∀ name ∈ names, IsFileName name) :
    (directory.listed.join (ofNames names)).rebase? directory destination =
      some (destination.join (ofNames names)) := by
  have listableToo := (parts_listed listable).2.1
  rw [rebase?, components_join_names _ nonempty each, components_listed listable,
    stripComponents?_append, Option.map_some, ofComponents_names nonempty each]

/-- No file found below a directory that begins with a dot goes anywhere. -/
theorem rebase?_of_dot {directory : Path} (dot : directory.parts.head? = some ".")
    (destination : Path) (nonempty : names ≠ []) (each : ∀ name ∈ names, IsFileName name) :
    (directory.listed.join (ofNames names)).rebase? directory destination = none := by
  have relative : directory.isAbsolute = false := by
    rw [Bool.eq_false_iff]
    intro absolute
    rw [head?_parts_of_isAbsolute absolute] at dot
    exact absurd (Option.some.inj dot) (by decide)
  have begins : ∃ rest, directory.components = .here :: rest := by
    obtain ⟨rest, whole⟩ := List.head?_eq_some_iff.1 dot
    refine ⟨rest.filterMap componentOf?, ?_⟩
    rw [components, whole, relative]
    rfl
  have dotless := head?_parts_join_names directory.head?_parts_listed nonempty each
  have absent : Component.here ∉ (directory.listed.join (ofNames names)).components := by
    rw [components_eq dotless, List.mem_append, not_or]
    refine ⟨?_, here_not_mem_filterMap _⟩
    split
    · decide
    · exact List.not_mem_nil
  obtain ⟨rest, whole⟩ := begins
  rw [rebase?, whole, stripComponents?_here absent]
  rfl

theorem place_join_names (base : Path) (nonempty : names ≠ [])
    (each : ∀ name ∈ names, IsFileName name) :
    (base.join (ofNames names)).place = base.place ++ names := by
  rw [place_join base (isAbsolute_ofNames nonempty each), parts_ofNames nonempty each]
  exact placeFrom_of_isName _ fun name member => (each name member).1

end Names

theorem isSilent_eq_false_of_isName {part : List Char}
    (isName : IsName (String.ofList part)) : isSilent part = false := by
  have notEmpty : part ≠ [] := by
    intro empty
    rw [empty] at isName
    exact isName.1 rfl
  have notDot : part ≠ ['.'] := by
    intro dot
    rw [dot] at isName
    exact isName.2.1 rfl
  rw [isSilent, beq_eq_false_iff_ne.2 notEmpty, beq_eq_false_iff_ne.2 notDot, Bool.or_false]

def EndsInName (path : Path) : Prop :=
  ∃ front last, path.parts = front ++ [last] ∧ IsName last

theorem dropSilentEnd_of_endsInName {path : Path} (ends : path.EndsInName) :
    dropSilentEnd path.text.toList = path.text.toList := by
  obtain ⟨front, last, whole, isName⟩ := ends
  obtain ⟨init, tail, same, -, isLast⟩ := List.map_eq_append_iff.1 whole
  obtain ⟨part, rfl, isPart⟩ := List.map_eq_singleton_iff.1 isLast
  rw [← isPart] at isName
  have kept : ((Text.split '/' path.text.toList).reverse.dropWhile isSilent).reverse =
      Text.split '/' path.text.toList := by
    rw [same, List.reverse_append, List.reverse_singleton, List.singleton_append,
      List.dropWhile_cons_of_neg (by rw [isSilent_eq_false_of_isName isName]; decide),
      List.reverse_cons, List.reverse_reverse]
  rw [dropSilentEnd, kept]
  exact Text.join_split '/' path.text.toList

theorem ofNames_singleton {name : String} (isFileName : IsFileName name) :
    ofNames [name] = ⟨name⟩ :=
  join_empty (isAbsolute_of_isFileName isFileName)

theorem parts_join_name {base : Path} (ends : base.EndsInName) {name : String}
    (isFileName : IsFileName name) : (base.join ⟨name⟩).parts = base.parts ++ [name] := by
  obtain ⟨front, isFront, joined⟩ := base.parts_join (isAbsolute_of_isFileName isFileName)
  obtain ⟨init, last, whole, isName⟩ := ends
  rw [joined, parts_of_isFileName isFileName]
  rcases isFront with same | same
  · rw [same]
  · rw [whole] at same
    have empty := List.append_inj_right' same rfl
    exact absurd (List.cons.inj empty).1 isName.1

theorem components_join_name (base : Path) {name : String} (isFileName : IsFileName name) :
    (base.join ⟨name⟩).components = base.components ++ [.name name] := by
  rw [← ofNames_singleton isFileName]
  exact components_join_names base (List.cons_ne_nil _ _)
    (List.forall_mem_singleton.2 isFileName)

/-- The path above a name in a directory is the directory. -/
theorem parent?_join {base : Path} (listable : base.IsListable) (ends : base.EndsInName)
    {name : String} (isFileName : IsFileName name) :
    (base.join ⟨name⟩).parent? = some base := by
  have parts := parts_join_name ends isFileName
  have endsToo : (base.join ⟨name⟩).EndsInName := ⟨base.parts, name, parts, isFileName.1⟩
  have split : Text.split '/' (base.join ⟨name⟩).text.toList =
      Text.split '/' base.text.toList ++ [name.toList] := by
    have mapped := congrArg (List.map String.toList) parts
    simpa [Path.parts, Function.comp_def] using mapped
  have filled : base.text.toList.isEmpty = false := by
    rw [List.isEmpty_eq_false_iff]
    exact fun empty => listable.1 (String.toList_eq_nil_iff.1 empty)
  rw [parent?, components_join_name base isFileName, List.getLast?_concat]
  simp only [dropSilentEnd_of_endsInName endsToo, split, List.dropLast_concat,
    Text.join_split, dropSilentEnd_of_endsInName ends, filled, Bool.false_eq_true, if_false,
    String.ofList_toList]

theorem rank_irrefl (component : Component) : component.precedes component = false := by
  cases component with
  | name text =>
      exact decide_eq_false (lt_irrefl text)
  | root =>
      rfl
  | here =>
      rfl
  | up =>
      rfl

theorem componentsPrecede_append (base first second : List Component) :
    componentsPrecede (base ++ first) (base ++ second) = componentsPrecede first second := by
  induction base with
  | nil =>
      rfl
  | cons component base inductionHypothesis =>
      rw [List.cons_append, List.cons_append, componentsPrecede, rank_irrefl,
        inductionHypothesis]
      simp

/-- Names are ordered one by one, a shorter list first. -/
theorem componentsPrecede_names (first second : List String) :
    componentsPrecede (first.map Component.name) (second.map Component.name) =
      decide (first < second) := by
  induction first generalizing second with
  | nil =>
      cases second with
      | nil =>
          rfl
      | cons name second =>
          exact (decide_eq_true (List.nil_lt_cons name second)).symm
  | cons name first inductionHypothesis =>
      cases second with
      | nil =>
          exact (decide_eq_false (List.not_lt_nil _)).symm
      | cons other second =>
          rw [List.map_cons, List.map_cons, componentsPrecede, inductionHypothesis]
          have cons : name :: first < other :: second ↔
              name < other ∨ name = other ∧ first < second :=
            List.cons_lt_cons_iff
          simp only [cons, Component.precedes]
          by_cases same : name = other
          · simp [same]
          · simp [same]

/-- Files found below a directory are ordered as their names below it are. -/
theorem precedes_join_names (base : Path) {first second : List String} (nonempty : first ≠ [])
    (nonemptyToo : second ≠ []) (each : ∀ name ∈ first, IsFileName name)
    (eachToo : ∀ name ∈ second, IsFileName name) :
    (base.join (ofNames first)).precedes (base.join (ofNames second)) =
      decide (first < second) := by
  rw [precedes, components_join_names base nonempty each,
    components_join_names base nonemptyToo eachToo, componentsPrecede_append,
    componentsPrecede_names]

/-- Files found below a directory are sorted by sorting their names below it. -/
theorem sort_map_join_names (base : Path) {files : List (List String)}
    (named : ∀ names ∈ files, names ≠ [] ∧ ∀ name ∈ names, IsFileName name) :
    sort (files.map fun names => base.join (ofNames names)) =
      (files.mergeSort (· ≤ ·)).map fun names => base.join (ofNames names) := by
  rw [sort]
  refine (List.map_mergeSort ?_).symm
  intro first isFirst second isSecond
  obtain ⟨nonempty, each⟩ := named first isFirst
  obtain ⟨nonemptyToo, eachToo⟩ := named second isSecond
  rw [precedes_join_names base nonemptyToo nonempty eachToo each, ← decide_not]
  exact decide_eq_decide.2 not_lt.symm

end Path

end AheadOfTime
