import AheadOfTime.Unicode.Classes

/-!
# Text as lists of characters

Splitting, joining and trimming, written by recursion over the characters.
Main statements: joining undoes splitting, and splitting undoes joining when
no part holds the separator.
-/

namespace AheadOfTime.Text

/-- The parts between the occurrences of `separator`; there is always one part
more than there are separators. -/
def split (separator : Char) : List Char → List (List Char)
  | [] => [[]]
  | c :: rest =>
      if c = separator then
        [] :: split separator rest
      else
        match split separator rest with
        | [] => [[c]]
        | part :: parts => (c :: part) :: parts

/-- The parts with `separator` between them. -/
def join (separator : List Char) : List (List Char) → List Char
  | [] => []
  | [part] => part
  | part :: parts => part ++ separator ++ join separator parts

theorem split_ne_nil (separator : Char) (text : List Char) :
    split separator text ≠ [] := by
  cases text with
  | nil =>
      simp [split]
  | cons c rest =>
      simp only [split]
      split
      · simp
      · split <;> simp

/-- Joining the parts of a text gives the text back. -/
theorem join_split (separator : Char) (text : List Char) :
    join [separator] (split separator text) = text := by
  induction text with
  | nil =>
      rfl
  | cons c rest inductionHypothesis =>
      have nonempty := split_ne_nil separator rest
      simp only [split]
      split
      · rename_i isSeparator
        cases found : split separator rest with
        | nil =>
            exact absurd found nonempty
        | cons part others =>
            rw [found] at inductionHypothesis
            simp [join, inductionHypothesis, isSeparator]
      · cases found : split separator rest with
        | nil =>
            exact absurd found nonempty
        | cons part others =>
            rw [found] at inductionHypothesis
            cases others with
            | nil =>
                simp_all [join]
            | cons next others =>
                simp_all [join]

/-- A text without the separator is its own only part. -/
theorem split_of_not_mem {separator : Char} {text : List Char}
    (absent : separator ∉ text) :
    split separator text = [text] := by
  induction text with
  | nil =>
      rfl
  | cons c rest inductionHypothesis =>
      simp only [List.mem_cons, not_or] at absent
      simp [split, inductionHypothesis absent.2, Ne.symm absent.1]

/-- The first part ends at the first separator. -/
theorem split_append_cons {separator : Char} {first : List Char}
    (absent : separator ∉ first) (rest : List Char) :
    split separator (first ++ separator :: rest) =
      first :: split separator rest := by
  induction first with
  | nil =>
      simp [split]
  | cons c first inductionHypothesis =>
      simp only [List.mem_cons, not_or] at absent
      simp [split, inductionHypothesis absent.2, Ne.symm absent.1]

/-- Splitting gives back the joined parts, when there is one and none of them
holds the separator. -/
theorem split_join {separator : Char} {parts : List (List Char)}
    (nonempty : parts ≠ [])
    (absent : ∀ part ∈ parts, separator ∉ part) :
    split separator (join [separator] parts) = parts := by
  induction parts with
  | nil =>
      exact absurd rfl nonempty
  | cons part parts inductionHypothesis =>
      cases parts with
      | nil =>
          exact split_of_not_mem (absent part (by simp))
      | cons next parts =>
          have tail := inductionHypothesis (by simp)
            fun inner member => absent inner (List.mem_cons_of_mem _ member)
          simp only [join, List.append_assoc, List.singleton_append]
          rw [split_append_cons (absent part (by simp)), tail]

def trimStart (text : List Char) : List Char :=
  text.dropWhile Unicode.isBlank

def trimEnd (text : List Char) : List Char :=
  (text.reverse.dropWhile Unicode.isBlank).reverse

def trim (text : List Char) : List Char :=
  trimEnd (trimStart text)

/-- A text of blanks only, or of nothing. -/
def isBlank (text : List Char) : Bool :=
  text.all Unicode.isBlank

/-- The lines of a text: each ends at a line feed, which is not part of it, nor
is a carriage return before that feed. What follows the last feed is a line
only if it is not empty, and keeps a carriage return at its end. -/
def lines (text : List Char) : List (List Char) :=
  match (split '\n' text).reverse with
  | [] => []
  | last :: ended =>
      let closed := ended.reverse.map fun line =>
        if line.getLast? = some '\r' then line.dropLast else line
      if last.isEmpty then closed else closed ++ [last]

/-- Every occurrence of `target` replaced by `replacement`. -/
def replaceChar (target : Char) (replacement : List Char) (text : List Char) :
    List Char :=
  text.flatMap fun c => if c = target then replacement else [c]

/-- The rest of the text after `start`, if the text begins with it. -/
def dropStart? : List Char → List Char → Option (List Char)
  | [], text => some text
  | _ :: _, [] => none
  | expected :: start, c :: text =>
      if c = expected then dropStart? start text else none

theorem dropStart?_eq_some_iff {start text rest : List Char} :
    dropStart? start text = some rest ↔ text = start ++ rest := by
  induction start generalizing text with
  | nil =>
      simp [dropStart?, eq_comm]
  | cons expected start inductionHypothesis =>
      cases text with
      | nil =>
          simp [dropStart?]
      | cons c text =>
          by_cases same : c = expected
          · simp [dropStart?, same, inductionHypothesis]
          · simp [dropStart?, same]

end AheadOfTime.Text
