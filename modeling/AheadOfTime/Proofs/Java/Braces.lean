import AheadOfTime.Proofs.Java.Fragments

/-!
# Braces

The braces of a source are those outside of its comments and texts.  They are balanced
when none closes that is not open and all are closed in the end.
-/

namespace AheadOfTime.Java

/-- How deep braces are after a code unit at a depth, unless it closes one that is not
open. -/
def depthAfter? (depth code : Nat) : Option Nat :=
  if code = '\x7b'.toNat then
    some (depth + 1)
  else if code = '\x7d'.toNat then
    if depth = 0 then none else some (depth - 1)
  else
    some depth

def braceDepth? : Nat → List Element → Option Nat
  | depth, [] => some depth
  | depth, .text _ :: rest => braceDepth? depth rest
  | depth, .unit code :: rest => (depthAfter? depth code).bind fun after => braceDepth? after rest

/-- Source that can be read, and whose braces are balanced. -/
def BalancedBraces (source : List Char) : Prop :=
  ∃ elements, readSource? source = some elements ∧ braceDepth? 0 elements = some 0

theorem braceDepth?_append (depth : Nat) (first second : List Element) :
    braceDepth? depth (first ++ second) =
      (braceDepth? depth first).bind fun between => braceDepth? between second := by
  induction first generalizing depth with
  | nil =>
      rfl
  | cons element rest inductionHypothesis =>
      cases element with
      | text value =>
          exact inductionHypothesis depth
      | unit code =>
          rw [List.cons_append, braceDepth?, braceDepth?, Option.bind_assoc]
          exact congrArg _ (funext inductionHypothesis)

/-- Elements that lead from one depth of braces to another, however deep they are
themselves. -/
def Shifts (elements : List Element) (before after : Nat) : Prop :=
  ∀ depth, braceDepth? (depth + before) elements = some (depth + after)

namespace Shifts

variable {first second : List Element} {before between after : Nat}

theorem append (firstShifts : Shifts first before between)
    (secondShifts : Shifts second between after) : Shifts (first ++ second) before after := by
  intro depth
  rw [braceDepth?_append, firstShifts, Option.bind_some, secondShifts]

theorem deepen (shifts : Shifts first before after) (outer : Nat) :
    Shifts first (outer + before) (outer + after) := by
  intro depth
  rw [← Nat.add_assoc, ← Nat.add_assoc]
  exact shifts (depth + outer)

theorem flatMap {α : Type} {items : List α} {elements : α → List Element}
    (each : ∀ item ∈ items, Shifts (elements item) 0 0) :
    Shifts (items.flatMap elements) 0 0 := by
  induction items with
  | nil =>
      exact fun _ => rfl
  | cons item items inductionHypothesis =>
      obtain ⟨first, others⟩ := List.forall_mem_cons.1 each
      exact first.append (inductionHypothesis others)

end Shifts

theorem shifts_text (value : List Nat) : Shifts [.text value] 0 0 :=
  fun _ => rfl

theorem shifts_units {units : List Nat}
    (braceless : ∀ unit ∈ units, unit ≠ '\x7b'.toNat ∧ unit ≠ '\x7d'.toNat) :
    Shifts (units.map .unit) 0 0 := by
  intro depth
  induction units with
  | nil =>
      rfl
  | cons unit units inductionHypothesis =>
      obtain ⟨⟨notOpen, notClose⟩, others⟩ := List.forall_mem_cons.1 braceless
      rw [List.map_cons, braceDepth?, depthAfter?, if_neg notOpen, if_neg notClose]
      exact inductionHypothesis others

theorem shifts_code {code : List Char}
    (braceless : ∀ c ∈ code, c ≠ '\x7b' ∧ c ≠ '\x7d') : Shifts (codeElements code) 0 0 := by
  refine shifts_units fun unit member => ⟨?_, ?_⟩
  · rintro rfl
    exact (braceless '\x7b' (mem_encodeUnits_of_ascii (by decide) member)).1 rfl
  · rintro rfl
    exact (braceless '\x7d' (mem_encodeUnits_of_ascii (by decide) member)).2 rfl

theorem shifts_plain {text : String} (plain : Plain text) :
    Shifts (codeElements text.toList) 0 0 :=
  shifts_code fun c member => (isPlain_iff.1 (plain c member)).2.2.2.2.2.2

theorem shifts_code_append {first second : String} {before between after : Nat}
    (firstShifts : Shifts (codeElements first.toList) before between)
    (secondShifts : Shifts (codeElements second.toList) between after) :
    Shifts (codeElements (first ++ second).toList) before after := by
  rw [String.toList_append, codeElements_append]
  exact firstShifts.append secondShifts

/-- Source that is read whatever comes after it, and leads from one depth of braces to
another. -/
def Braces (source : String) (before after : Nat) : Prop :=
  ∃ elements, Reads source.toList elements ∧ Shifts elements before after

namespace Braces

variable {first second : String} {before between after : Nat}

theorem append (firstBraces : Braces first before between)
    (secondBraces : Braces second between after) : Braces (first ++ second) before after := by
  obtain ⟨firstElements, firstReads, firstShifts⟩ := firstBraces
  obtain ⟨secondElements, secondReads, secondShifts⟩ := secondBraces
  refine ⟨firstElements ++ secondElements, ?_, firstShifts.append secondShifts⟩
  rw [String.toList_append]
  exact firstReads.append secondReads

theorem deepen (braces : Braces first before after) (outer : Nat) :
    Braces first (outer + before) (outer + after) := by
  obtain ⟨elements, reads, shifts⟩ := braces
  exact ⟨elements, reads, shifts.deepen outer⟩

theorem plain {text : String} (plain : Plain text) : Braces text 0 0 :=
  ⟨_, reads_code fun c member => isCode_of_isPlain (plain c member),
    shifts_plain plain⟩

theorem balanced (braces : Braces first 0 0) : BalancedBraces first.toList := by
  obtain ⟨elements, reads, shifts⟩ := braces
  exact ⟨elements, readSource?_of_readsApart reads.apart, shifts 0⟩

end Braces

end AheadOfTime.Java
