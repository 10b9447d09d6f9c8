import Mathlib.Data.List.DropRight
import AheadOfTime.Proofs.Path.Components

/-!
# The path above a path

Empty parts and dots add no component, wherever they stand after the first part.  So what is
left when they are dropped at the end has the same components, and the path above a path has all
but the last one.
-/

namespace AheadOfTime.Path

theorem componentOf?_cases {part : String} {component : Component}
    (isComponent : componentOf? part = some component) :
    component = .up ∨ ∃ name, component = .name name := by
  unfold componentOf? at isComponent
  split at isComponent
  · cases isComponent
  · split at isComponent
    · cases isComponent
    · split at isComponent
      · exact .inl (Option.some.inj isComponent).symm
      · exact .inr ⟨part, (Option.some.inj isComponent).symm⟩

theorem start_cases (path : Path) :
    path.start = [.root] ∨ path.start = [.here] ∨ path.start = [] := by
  rw [start]
  split
  · exact .inl rfl
  · split
    · exact .inr (.inl rfl)
    · exact .inr (.inr rfl)

theorem root_not_mem_inner (path : Path) : Component.root ∉ path.inner := by
  intro member
  obtain ⟨part, -, isRoot⟩ := List.mem_filterMap.1 member
  rcases componentOf?_cases isRoot with isUp | ⟨name, isName⟩
  · cases isUp
  · cases isName

/-- A path begins at the root just when the root is one of its components. -/
theorem isAbsolute_iff_root_mem {path : Path} :
    path.isAbsolute = true ↔ Component.root ∈ path.components := by
  rw [components_eq_start_append, List.mem_append, or_iff_left path.root_not_mem_inner, start]
  constructor
  · intro absolute
    rw [if_pos absolute]
    exact List.mem_singleton_self _
  · intro member
    by_contra relative
    rw [if_neg relative] at member
    split at member
    · cases List.mem_singleton.1 member
    · cases member

theorem componentOf?_eq_none_iff {part : List Char} :
    componentOf? (String.ofList part) = none ↔ isSilent part = true := by
  have empty : String.ofList part = "" ↔ part = [] := String.ofList_eq_empty_iff
  have dot : String.ofList part = "." ↔ part = ['.'] := by
    rw [← String.toList_inj, String.toList_ofList]
    rfl
  have silent : isSilent part = true ↔ String.ofList part = "" ∨ String.ofList part = "." := by
    rw [isSilent, Bool.or_eq_true, beq_iff_eq, beq_iff_eq, empty, dot]
  rw [silent, componentOf?]
  split
  · exact iff_of_true rfl (.inl ‹_›)
  · split
    · exact iff_of_true rfl (.inr ‹_›)
    · rename_i filled notDot
      have loud := not_or.2 ⟨filled, notDot⟩
      split
      · exact iff_of_false (Option.some_ne_none _) loud
      · exact iff_of_false (Option.some_ne_none _) loud

def named (parts : List (List Char)) : List Component :=
  (parts.map String.ofList).filterMap componentOf?

theorem named_concat (parts : List (List Char)) (part : List Char) :
    named (parts ++ [part]) = named parts ++ (componentOf? (String.ofList part)).toList := by
  rw [named, List.map_append, List.filterMap_append, List.map_singleton, List.filterMap_cons,
    List.filterMap_nil, ← named]
  cases componentOf? (String.ofList part) with
  | none =>
      rfl
  | some component =>
      rfl

theorem named_rdropWhile (parts : List (List Char)) :
    named (parts.rdropWhile isSilent) = named parts := by
  induction parts using List.reverseRecOn with
  | nil =>
      rfl
  | append_singleton parts part inductionHypothesis =>
      cases silent : isSilent part with
      | true =>
          rw [List.rdropWhile_concat_pos _ _ _ silent, inductionHypothesis, named_concat,
            componentOf?_eq_none_iff.2 silent]
          exact (List.append_nil _).symm
      | false =>
          rw [List.rdropWhile_concat_neg _ _ _ (Bool.eq_false_iff.1 silent)]

/-- Joined parts are split into themselves; only no parts become an empty one. -/
theorem named_split_join {parts : List (List Char)} (slashless : ∀ part ∈ parts, '/' ∉ part) :
    named (Text.split '/' (Text.join ['/'] parts)) = named parts := by
  by_cases empty : parts = []
  · rw [empty]
    rfl
  · rw [Text.split_join empty slashless]

theorem inner_ofList (text : List Char) :
    (⟨String.ofList text⟩ : Path).inner = named (Text.split '/' text) := by
  rw [inner, parts, String.toList_ofList]
  rfl

theorem named_dropSilentEnd (text : List Char) :
    named (Text.split '/' (dropSilentEnd text)) = named (Text.split '/' text) := by
  have slashless : ∀ part ∈ (Text.split '/' text).rdropWhile isSilent, '/' ∉ part :=
    fun part member => Text.separator_not_mem_of_mem_split
      ((List.rdropWhile_prefix isSilent _).subset member)
  exact (named_split_join slashless).trans (named_rdropWhile _)

/-- The last part that counts, and the parts before it. -/
theorem exists_split_dropSilentEnd {text : List Char}
    (counts : named (Text.split '/' text) ≠ []) :
    ∃ front last component, Text.split '/' (dropSilentEnd text) = front ++ [last] ∧
      componentOf? (String.ofList last) = some component := by
  have kept : (Text.split '/' text).rdropWhile isSilent ≠ [] := by
    intro empty
    rw [← named_rdropWhile, empty] at counts
    exact counts rfl
  have slashless : ∀ part ∈ (Text.split '/' text).rdropWhile isSilent, '/' ∉ part :=
    fun part member => Text.separator_not_mem_of_mem_split
      ((List.rdropWhile_prefix isSilent _).subset member)
  have loud := List.rdropWhile_last_not isSilent _ kept
  rw [← componentOf?_eq_none_iff] at loud
  obtain ⟨component, isComponent⟩ := Option.ne_none_iff_exists'.1 loud
  refine ⟨((Text.split '/' text).rdropWhile isSilent).dropLast, _, component, ?_, isComponent⟩
  rw [List.dropLast_concat_getLast kept]
  exact Text.split_join kept slashless

/-- What the path above a path is when nothing is left of its text: where the path begins. -/
def top (path : Path) : Path :=
  if path.isAbsolute then ⟨"/"⟩
  else if path.components.head? == some .here then ⟨"."⟩
  else ⟨""⟩

theorem components_top {path : Path} {component : Component}
    (isLast : component = .up ∨ ∃ name, component = .name name)
    (whole : path.components = path.start ++ [component]) : path.top.components = path.start := by
  rw [top, whole, start]
  by_cases absolute : path.isAbsolute = true
  · rw [if_pos absolute, if_pos absolute]
    decide
  · rw [if_neg absolute, if_neg absolute]
    by_cases dot : path.parts.head? = some "."
    · rw [if_pos dot, List.cons_append, List.head?_cons, beq_self_eq_true, if_pos rfl]
      decide
    · rw [if_neg dot]
      rcases isLast with rfl | ⟨name, rfl⟩
      · decide
      · rfl

theorem parent?_eq {path : Path} {front : List (List Char)} {last : List Char}
    {component : Component} (isLast : component = .up ∨ ∃ name, component = .name name)
    (ends : path.components.getLast? = some component)
    (split : Text.split '/' (dropSilentEnd path.text.toList) = front ++ [last]) :
    path.parent? = some
      (if (dropSilentEnd (Text.join ['/'] front)).isEmpty then path.top
        else ⟨String.ofList (dropSilentEnd (Text.join ['/'] front))⟩) := by
  rw [parent?, ends, top, apply_ite some, apply_ite some, apply_ite some]
  rcases isLast with rfl | ⟨name, rfl⟩
  · simp only [split, List.dropLast_concat]
  · simp only [split, List.dropLast_concat]

/-- What is left above the last part begins as the path does, and has the components of the
parts before the last one. -/
theorem components_above {path : Path} {front : List (List Char)} {last : List Char}
    (split : Text.split '/' (dropSilentEnd path.text.toList) = front ++ [last])
    (filled : dropSilentEnd (Text.join ['/'] front) ≠ []) :
    (⟨String.ofList (dropSilentEnd (Text.join ['/'] front))⟩ : Path).components =
      path.start ++ named front := by
  have slashless : ∀ part ∈ front, '/' ∉ part := fun part member =>
    Text.separator_not_mem_of_mem_split (split ▸ List.mem_append_left [last] member)
  have isFront : front = (Text.split '/' (dropSilentEnd path.text.toList)).dropLast := by
    rw [split, List.dropLast_concat]
  have isPrefix : Text.split '/' (dropSilentEnd (Text.join ['/'] front)) <+:
      Text.split '/' path.text.toList := by
    rw [isFront] at filled ⊢
    exact split_above filled
  have begins : (⟨String.ofList (dropSilentEnd (Text.join ['/'] front))⟩ : Path).start =
      path.start := by
    refine start_eq_of_head? (fun empty => filled (String.ofList_eq_empty_iff.1 empty)) ?_ ?_
    · intro empty
      rw [empty] at split
      have single : [[]] = front ++ [last] := split
      cases front with
      | nil =>
          exact filled rfl
      | cons part others =>
          exact List.append_ne_nil_of_right_ne_nil others (List.cons_ne_nil last [])
            (List.cons.inj single).2.symm
    · obtain ⟨others, same⟩ := isPrefix
      rw [parts, parts, String.toList_ofList, ← same, List.map_append,
        List.head?_append_of_ne_nil]
      exact fun empty => Text.split_ne_nil '/' _ (List.map_eq_nil_iff.1 empty)
  rw [components_eq_start_append, begins, inner_ofList, named_dropSilentEnd,
    named_split_join slashless]

/-- The path above a path has all its components but the last. -/
theorem components_parent? {path parent : Path} (above : path.parent? = some parent) :
    parent.components = path.components.dropLast := by
  have whole := path.components_eq_start_append
  have isInner : path.inner = named (Text.split '/' path.text.toList) := rfl
  by_cases bare : path.inner = []
  · -- Only a dot that comes first has something above it then.
    rw [bare, List.append_nil] at whole
    rcases path.start_cases with isRoot | isHere | none
    · rw [parent?, whole, isRoot] at above
      cases above
    · rw [parent?, whole, isHere] at above
      rw [whole, isHere, ← Option.some.inj above]
      rfl
    · rw [parent?, whole, none] at above
      cases above
  rw [isInner] at bare
  obtain ⟨front, last, component, split, isComponent⟩ := exists_split_dropSilentEnd bare
  have isLast := componentOf?_cases isComponent
  rw [isInner, ← named_dropSilentEnd, split, named_concat, isComponent, ← List.append_assoc]
    at whole
  change _ = path.start ++ named front ++ [component] at whole
  have ends : path.components.getLast? = some component := by
    rw [whole, List.getLast?_concat]
  rw [parent?_eq isLast ends split] at above
  rw [← Option.some.inj above, whole, List.dropLast_concat]
  by_cases empty : dropSilentEnd (Text.join ['/'] front) = []
  · have slashless : ∀ part ∈ front, '/' ∉ part := fun part member =>
      Text.separator_not_mem_of_mem_split (split ▸ List.mem_append_left [last] member)
    have bareFront : named front = [] := by
      rw [← named_split_join slashless, ← named_dropSilentEnd, empty]
      rfl
    rw [bareFront, List.append_nil] at whole ⊢
    rw [if_pos (List.isEmpty_iff.2 empty)]
    exact components_top isLast whole
  · rw [if_neg (List.isEmpty_iff.not.2 empty)]
    exact components_above split empty

/-- The path above an absolute path is absolute. -/
theorem isAbsolute_parent? {path parent : Path} (absolute : path.isAbsolute = true)
    (above : path.parent? = some parent) : parent.isAbsolute = true := by
  rw [isAbsolute_iff_root_mem, components_parent? above]
  have whole := path.components_eq_start_append
  rw [start, if_pos absolute, List.singleton_append] at whole
  cases found : path.inner with
  | nil =>
      rw [parent?, whole, found] at above
      cases above
  | cons component rest =>
      rw [whole, found, List.dropLast_cons_cons]
      exact List.mem_cons_self

end AheadOfTime.Path
