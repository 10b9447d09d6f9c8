import AheadOfTime.Proofs.FileTree.Ways
import AheadOfTime.Proofs.Path.Below

/-!
# Directories that cannot be made

Below a directory that is there, what is in the way of a directory or a file stays in the way:
a file where a directory has to be, a name that is too long, or a directory in the place of a
file.  An attempt that fails has made all directories that can be made, so the same attempt
later fails and changes nothing.
-/

namespace AheadOfTime.FileTree

theorem step_of_isName (tree : FileTree) (place : Place) {part : String}
    (isName : Path.IsName part) :
    tree.step place part =
      if !tree.hasDirectory place then .error .blocked
      else if !isUsableName part then .error .blocked
      else
        match tree.node? (place ++ [part]) with
        | some _ => .ok (place ++ [part])
        | none => .error .missing := by
  obtain ⟨notEmpty, notHere, notUp⟩ := isName
  have notSilent : ¬ (decide (part = "") || decide (part = ".")) = true := by
    rw [Bool.or_eq_true, decide_eq_true_eq, decide_eq_true_eq]
    exact not_or.2 ⟨notEmpty, notHere⟩
  unfold step
  cases tree.hasDirectory place with
  | true =>
      exact (if_neg notSilent).trans (if_neg notUp)
  | false =>
      rfl

theorem isNewName_of_isName {name : String} (isName : Path.IsName name) :
    isNewName name = isUsableName name := by
  obtain ⟨notEmpty, notHere, notUp⟩ := isName
  rw [isNewName, bne_iff_ne.2 notEmpty, bne_iff_ne.2 notHere, bne_iff_ne.2 notUp]
  rfl

/-- Only a directory in which nothing has the name yet has a free place for it. -/
theorem freePlace_eq_blocked_iff {tree : FileTree} {directory : Place} {name : String}
    (isName : Path.IsName name) :
    tree.freePlace directory name = .error .blocked ↔
      (tree.hasDirectory directory = true → isUsableName name = true →
        tree.node? (directory ++ [name]) ≠ none) := by
  rw [freePlace, isNewName_of_isName isName, Ne, ← Option.isNone_iff_eq_none]
  cases tree.hasDirectory directory with
  | false =>
      exact ⟨fun _ absent => absurd absent Bool.false_ne_true, fun _ => rfl⟩
  | true =>
      cases isUsableName name with
      | false =>
          exact ⟨fun _ _ unusable => absurd unusable Bool.false_ne_true, fun _ => rfl⟩
      | true =>
          cases (tree.node? (directory ++ [name])).isNone with
          | false =>
              exact ⟨fun _ _ _ => Bool.false_ne_true, fun _ => rfl⟩
          | true =>
              constructor
              · intro blocked
                cases blocked
              · exact fun there => absurd rfl (there rfl rfl)

theorem freePlace_ne_missing (tree : FileTree) (directory : Place) (name : String) :
    tree.freePlace directory name ≠ .error .missing := by
  rw [freePlace]
  split
  · intro missing
    cases missing
  · intro missing
    cases missing

/-- What blocks names goes on to block them. -/
theorem walk_blocked_of_edits {made written : Place → Prop} {before after : FileTree}
    (edits : Edits made written before after) {start : Place} {names : List String}
    (each : ∀ name ∈ names, Path.IsFileName name) (there : before.node? start ≠ none)
    (blocked : before.walk start names = .error .blocked) :
    after.walk start names = .error .blocked := by
  induction names generalizing start with
  | nil =>
      cases blocked
  | cons name names inductionHypothesis =>
      obtain ⟨isFileName, others⟩ := List.forall_mem_cons.1 each
      rw [walk] at blocked ⊢
      cases taken : before.step start name with
      | ok next =>
          rw [taken] at blocked
          obtain ⟨node, found⟩ := (of_step taken).2.2 isFileName.1
          rw [step_of_edits edits taken]
          refine inductionHypothesis others ?_ blocked
          rw [found]
          exact Option.some_ne_none node
      | error fault =>
          rw [taken] at blocked
          rw [Except.error.inj blocked] at taken
          rw [step_of_isName _ _ isFileName.1] at taken ⊢
          split at taken
          · rename_i noDirectory
            have stays := edits.not_hasDirectory there (by simpa using noDirectory)
            rw [stays]
            rfl
          · split at taken
            · rename_i unusable
              rw [if_pos unusable, ite_self]
            · split at taken
              · cases taken
              · cases taken

/-- What has taken a name in a directory, and is no directory itself, goes on to take it. -/
theorem taken_of_edits {made written : Place → Prop} {before after : FileTree}
    (edits : Edits made written before after) {directory : Place} {name : String}
    (found : before.node? directory ≠ none)
    (taken : before.hasDirectory directory = true →
      before.node? (directory ++ [name]) ≠ none ∧
        before.hasDirectory (directory ++ [name]) = false)
    (starts : after.hasDirectory directory = true) :
    after.node? (directory ++ [name]) ≠ none ∧
      after.hasDirectory (directory ++ [name]) = false := by
  have started : before.hasDirectory directory = true := by
    by_contra notDirectory
    rw [edits.not_hasDirectory found (Bool.eq_false_iff.2 notDirectory)] at starts
    cases starts
  obtain ⟨isTaken, noDirectory⟩ := taken started
  exact ⟨edits.node?_ne_none isTaken, edits.not_hasDirectory isTaken noDirectory⟩

section Root

variable {root : Path} (isBase : root.IsBase) {tree : FileTree}
  (there : tree.isDirectory root = true)

include isBase there

theorem walk_below {names : List String} (each : ∀ name ∈ names, Path.IsFileName name) :
    tree.walk [] (root.below names).parts = tree.walk root.place names := by
  rw [isBase.parts_below each, walk_append, (locate?_eq_some_iff.1 (isDirectory_iff.1 there).1).2]

end Root

section Base

variable {base : Path} (isBase : base.IsBase) {name : String}
  (isFileName : Path.IsFileName name)

include isBase isFileName

theorem leadsInto_join_iff {tree : FileTree} :
    tree.LeadsInto (base.join ⟨name⟩) base.place name ↔
      isUsablePath (base.join ⟨name⟩) = true ∧ tree.walk [] base.parts = .ok base.place ∧
        tree.hasDirectory base.place = true ∧ isUsableName name = true := by
  have parts := Path.parts_join_name isBase.ends isFileName
  rw [← isNewName_of_isName isFileName.1]
  constructor
  · rintro ⟨usable, ⟨front, whole, walked⟩, starts, isNew⟩
    rw [parts] at whole
    rw [(List.append_inj' whole rfl).1]
    exact ⟨usable, walked, starts, isNew⟩
  · rintro ⟨usable, walked, starts, isNew⟩
    exact ⟨usable, ⟨base.parts, parts, walked⟩, starts, isNew⟩

theorem leadsInto_join_of_isDirectory {tree : FileTree} (there : tree.isDirectory base = true) :
    tree.LeadsInto (base.join ⟨name⟩) base.place name ↔
      isUsablePath (base.join ⟨name⟩) = true ∧ isUsableName name = true := by
  obtain ⟨leads, starts⟩ := isDirectory_iff.1 there
  rw [leadsInto_join_iff isBase isFileName]
  exact ⟨fun both => ⟨both.1, both.2.2.2⟩,
    fun both => ⟨both.1, (locate?_eq_some_iff.1 leads).2, starts, both.2⟩⟩

/-- A name leads to what is there in the directory that it leads into. -/
theorem locate?_join_iff {tree : FileTree} :
    tree.locate? (base.join ⟨name⟩) = some (base.join ⟨name⟩).place ↔
      tree.LeadsInto (base.join ⟨name⟩) base.place name ∧
        tree.node? (base.join ⟨name⟩).place ≠ none := by
  have parts := Path.parts_join_name isBase.ends isFileName
  constructor
  · intro leads
    obtain ⟨usable, walked⟩ := locate?_eq_some_iff.1 leads
    rw [parts] at walked
    obtain ⟨between, walkedBase, walkedLast⟩ := walk_of_walk_append walked
    have isPlace : between = base.place := placeFrom_of_walk walkedBase
    rw [isPlace] at walkedBase walkedLast
    obtain ⟨next, taken, ends⟩ := walk_cons_eq_ok_iff.1 walkedLast
    obtain ⟨starts, -, there⟩ := of_step taken
    obtain ⟨node, found⟩ := there isFileName.1
    rw [← Except.ok.inj ends, found]
    refine ⟨(leadsInto_join_iff isBase isFileName).2 ⟨usable, walkedBase, starts, ?_⟩,
      Option.some_ne_none node⟩
    rw [step_of_isName _ _ isFileName.1, starts] at taken
    by_contra unusable
    rw [Bool.not_eq_true] at unusable
    rw [unusable] at taken
    cases taken
  · rintro ⟨leads, there⟩
    exact leads.locate? (Edits.done : Edits (fun _ => False) (fun _ => False) tree tree) there

theorem isDirectory_join_iff {tree : FileTree} :
    tree.isDirectory (base.join ⟨name⟩) = true ↔
      tree.LeadsInto (base.join ⟨name⟩) base.place name ∧
        tree.hasDirectory (base.join ⟨name⟩).place = true := by
  rw [isDirectory_iff, locate?_join_iff isBase isFileName]
  constructor
  · rintro ⟨⟨leads, -⟩, directory⟩
    exact ⟨leads, directory⟩
  · rintro ⟨leads, directory⟩
    refine ⟨⟨leads, ?_⟩, directory⟩
    rw [beq_iff_eq.1 directory]
    exact Option.some_ne_none _

/-- A directory is made where its name leads into another one and nothing is. -/
theorem makeDirectory_join (tree : FileTree) :
    tree.makeDirectory (base.join ⟨name⟩) =
      if isUsablePath (base.join ⟨name⟩) then
        match tree.walk [] base.parts with
        | .error fault => .error fault
        | .ok directory =>
            match tree.freePlace directory name with
            | .error fault => .error fault
            | .ok place => .ok (tree.put place .directory)
      else
        .error .blocked := by
  have parts := Path.parts_join_name isBase.ends isFileName
  have kept : dropEmptyEnd (base.join ⟨name⟩).parts = base.parts ++ [name] := by
    rw [parts, dropEmptyEnd, List.reverse_append, List.reverse_singleton, List.singleton_append,
      List.dropWhile_cons_of_neg (by simpa using isFileName.1.1), List.reverse_cons,
      List.reverse_reverse]
  rw [makeDirectory, kept]
  cases isUsablePath (base.join ⟨name⟩) with
  | false =>
      rfl
  | true =>
      simp only [Bool.not_true, Bool.false_eq_true, if_false, if_true, List.getLast?_concat,
        List.dropLast_concat]
      cases tree.walk [] base.parts with
      | error fault =>
          rfl
      | ok directory =>
          cases free : tree.freePlace directory name with
          | error fault =>
              simp only [bind, Except.bind, free]
          | ok place =>
              simp only [bind, Except.bind, free]
              rfl

theorem makeDirectory_join_eq_ok_iff {tree after : FileTree} :
    tree.makeDirectory (base.join ⟨name⟩) = .ok after ↔
      tree.LeadsInto (base.join ⟨name⟩) base.place name ∧
        tree.node? (base.join ⟨name⟩).place = none ∧
        after = tree.put (base.join ⟨name⟩).place .directory := by
  have place := Path.place_join_name base isFileName
  constructor
  · intro made
    obtain ⟨-, -, -, -, -, free, same⟩ := of_makeDirectory made
    refine ⟨(leadsInto_join_iff isBase isFileName).2 ?_, free, same⟩
    rw [makeDirectory_join isBase isFileName] at made
    split at made
    · rename_i usable
      cases walked : tree.walk [] base.parts with
      | error fault =>
          rw [walked] at made
          cases made
      | ok directory =>
          rw [walked] at made
          have isPlace : directory = base.place := placeFrom_of_walk walked
          rw [isPlace] at made
          cases found : tree.freePlace base.place name with
          | error fault =>
              simp only [found] at made
              cases made
          | ok place =>
              obtain ⟨starts, isNew, -, -⟩ := of_freePlace found
              rw [isNewName_of_isName isFileName.1] at isNew
              exact ⟨usable, by rw [isPlace], starts, isNew⟩
    · cases made
  · rintro ⟨leads, free, rfl⟩
    obtain ⟨usable, walked, starts, -⟩ := (leadsInto_join_iff isBase isFileName).1 leads
    have found : tree.freePlace base.place name = .ok (base.join ⟨name⟩).place := by
      rw [place] at free ⊢
      rw [freePlace, starts, leads.isNew, free]
      rfl
    rw [makeDirectory_join isBase isFileName, if_pos usable, walked]
    simp only [found]

/-- A directory is made in one that is made first if it is missing. -/
theorem makeDirectories_join (tree : FileTree) :
    tree.makeDirectories (base.join ⟨name⟩) =
      match tree.makeDirectory (base.join ⟨name⟩) with
      | .ok changed => (changed, true)
      | .error .blocked => (tree, tree.isDirectory (base.join ⟨name⟩))
      | .error .missing =>
          match tree.makeDirectories base with
          | (changed, false) => (changed, false)
          | (changed, true) =>
              match changed.makeDirectory (base.join ⟨name⟩) with
              | .ok made => (made, true)
              | .error _ => (changed, changed.isDirectory (base.join ⟨name⟩)) := by
  have length : (base.join ⟨name⟩).components.length = base.components.length + 1 := by
    rw [Path.components_join_name _ isFileName, List.length_append]
    rfl
  have filled : (base.join ⟨name⟩).text ≠ "" := (isBase.join isFileName).listable.1
  rw [makeDirectories, length, ancestors,
    Path.parent?_join isBase.listable isBase.ends isFileName]
  simp only
  rw [makeChain, if_neg filled]
  rfl

/-- A directory that has been made is there. -/
theorem isDirectory_of_makeDirectories {tree after : FileTree}
    (made : tree.makeDirectories (base.join ⟨name⟩) = (after, true)) :
    after.isDirectory (base.join ⟨name⟩) = true := by
  have ofMade : ∀ {before changed : FileTree},
      before.makeDirectory (base.join ⟨name⟩) = .ok changed →
      changed.isDirectory (base.join ⟨name⟩) = true := by
    intro before changed isMade
    obtain ⟨leads, free, same⟩ := (makeDirectory_join_eq_ok_iff isBase isFileName).1 isMade
    have edits : Edits (fun _ => True) (fun _ => False) before changed :=
      edits_makeDirectory isMade trivial
    have admits := leads.admits (by rw [free]; exact nofun)
    refine (isDirectory_join_iff isBase isFileName).2 ⟨leads.of_edits edits, ?_⟩
    rw [same, hasDirectory, node?_put admits, if_pos rfl]
    rfl
  rw [makeDirectories_join isBase isFileName] at made
  cases first : tree.makeDirectory (base.join ⟨name⟩) with
  | ok changed =>
      rw [first] at made
      have same : changed = after := congrArg Prod.fst made
      rw [← same]
      exact ofMade first
  | error fault =>
      rw [first] at made
      cases fault with
      | blocked =>
          obtain ⟨same, isDirectory⟩ := Prod.mk.inj made
          rw [← same]
          exact isDirectory
      | missing =>
          simp only at made
          cases rest : tree.makeDirectories base with
          | mk changed done =>
              rw [rest] at made
              cases done with
              | false =>
                  cases made
              | true =>
                  simp only at made
                  cases last : changed.makeDirectory (base.join ⟨name⟩) with
                  | ok final =>
                      rw [last] at made
                      have same : final = after := congrArg Prod.fst made
                      rw [← same]
                      exact ofMade last
                  | error fault =>
                      rw [last] at made
                      obtain ⟨same, isDirectory⟩ := Prod.mk.inj made
                      rw [← same]
                      exact isDirectory

/-- A directory is blocked by a path that cannot be asked for, on the way, or at its place. -/
theorem makeDirectory_join_eq_blocked_iff {tree : FileTree} :
    tree.makeDirectory (base.join ⟨name⟩) = .error .blocked ↔
      (isUsablePath (base.join ⟨name⟩) = true →
        tree.walk [] base.parts = .error .blocked ∨
          tree.walk [] base.parts = .ok base.place ∧
            tree.freePlace base.place name = .error .blocked) := by
  rw [makeDirectory_join isBase isFileName]
  by_cases usable : isUsablePath (base.join ⟨name⟩) = true
  · rw [if_pos usable]
    cases walked : tree.walk [] base.parts with
    | error fault =>
        simp only [Except.error.injEq, reduceCtorEq, false_and, or_false]
        exact ⟨fun blocked _ => blocked, fun blocked => blocked usable⟩
    | ok directory =>
        have isPlace : directory = base.place := placeFrom_of_walk walked
        rw [isPlace]
        cases free : tree.freePlace base.place name with
        | ok place =>
            simp only [free, reduceCtorEq, and_false, or_self]
            exact ⟨False.elim, fun blocked => blocked usable⟩
        | error fault =>
            simp only [free, Except.error.injEq, reduceCtorEq, true_and, false_or]
            exact ⟨fun blocked _ => blocked, fun blocked => blocked usable⟩
  · rw [if_neg usable]
    exact ⟨fun _ isUsable => absurd isUsable usable, fun _ => rfl⟩

/-- In a directory, only what is there already is in the way of making another one. -/
theorem makeDirectory_join_ne_missing {tree : FileTree} (there : tree.isDirectory base = true) :
    tree.makeDirectory (base.join ⟨name⟩) ≠ .error .missing := by
  rw [makeDirectory_join isBase isFileName, (locate?_eq_some_iff.1 (isDirectory_iff.1 there).1).2]
  split
  · simp only
    cases found : tree.freePlace base.place name with
    | ok place =>
        intro missing
        cases missing
    | error fault =>
        intro missing
        rw [Except.error.inj missing] at found
        exact freePlace_ne_missing tree base.place name found
  · intro missing
    cases missing

/-- A name leads into a directory that is there. -/
theorem isDirectory_of_leadsInto {tree : FileTree}
    (leads : tree.LeadsInto (base.join ⟨name⟩) base.place name) :
    tree.isDirectory base = true := by
  obtain ⟨usable, walked, starts, -⟩ := (leadsInto_join_iff isBase isFileName).1 leads
  have usableBase := isUsablePath_of_join isBase.listable.1
    (Path.isAbsolute_of_isFileName isFileName) usable
  exact isDirectory_iff.2 ⟨locate?_eq_some_iff.2 ⟨usableBase, walked⟩, starts⟩

/-- Where a directory is, the one above it is. -/
theorem isDirectory_of_isDirectory_join {tree : FileTree}
    (there : tree.isDirectory (base.join ⟨name⟩) = true) : tree.isDirectory base = true :=
  isDirectory_of_leadsInto isBase isFileName
    ((isDirectory_join_iff isBase isFileName).1 there).1

/-- What cannot be made in a directory that cannot be made. -/
theorem makeDirectories_join_of_failed {tree : FileTree}
    (failed : tree.makeDirectories base = (tree, false)) :
    tree.makeDirectories (base.join ⟨name⟩) = (tree, false) := by
  have noDirectory : ¬ tree.isDirectory base = true := by
    intro isDirectory
    rw [makeDirectories_of_isDirectory isDirectory] at failed
    cases failed
  rw [makeDirectories_join isBase isFileName]
  cases made : tree.makeDirectory (base.join ⟨name⟩) with
  | ok changed =>
      have leads := ((makeDirectory_join_eq_ok_iff isBase isFileName).1 made).1
      exact absurd (isDirectory_of_leadsInto isBase isFileName leads) noDirectory
  | error fault =>
      cases fault with
      | missing =>
          simp only [failed]
      | blocked =>
          have absent := Bool.eq_false_iff.2 fun isDirectory =>
            noDirectory (isDirectory_of_isDirectory_join isBase isFileName isDirectory)
          simp only [absent]

end Base

/-! ## Obstacles -/

section Obstacles

variable {made written : Place → Prop} {root : Path} (isBase : root.IsBase)
  {before changed later : FileTree} (there : before.isDirectory root = true)

include isBase there

theorem isDirectory_below_of_makeDirectories {names : List String}
    (each : ∀ name ∈ names, Path.IsFileName name)
    (done : before.makeDirectories (root.below names) = (changed, true)) :
    changed.isDirectory (root.below names) = true := by
  rcases List.eq_nil_or_concat names with empty | ⟨front, last, whole⟩
  · rw [empty, Path.below, List.foldl_nil] at done ⊢
    rw [makeDirectories_of_isDirectory there] at done
    obtain ⟨rfl, -⟩ := Prod.mk.inj done
    exact there
  · rw [List.concat_eq_append] at whole
    rw [whole] at each done ⊢
    obtain ⟨others, isLast⟩ := List.forall_mem_append.1 each
    rw [Path.below_concat] at done ⊢
    exact isDirectory_of_makeDirectories (isBase.below others)
      (List.forall_mem_singleton.1 isLast) done

/-- What blocks a directory goes on to block it. -/
theorem makeDirectory_stays_blocked (edits : Edits made written before later)
    {front : List String} (each : ∀ name ∈ front, Path.IsFileName name) {last : String}
    (isFileName : Path.IsFileName last)
    (blocked : before.makeDirectory ((root.below front).join ⟨last⟩) = .error .blocked)
    (absent : before.isDirectory ((root.below front).join ⟨last⟩) = false) :
    later.makeDirectory ((root.below front).join ⟨last⟩) = .error .blocked ∧
      later.isDirectory ((root.below front).join ⟨last⟩) = false := by
  have isAbove := isBase.below each
  have place := Path.place_join_name (root.below front) isFileName
  rw [Bool.eq_false_iff, Ne, isDirectory_join_iff isAbove isFileName,
    leadsInto_join_iff isAbove isFileName, place] at absent ⊢
  rw [makeDirectory_join_eq_blocked_iff isAbove isFileName] at blocked ⊢
  by_cases usable : isUsablePath ((root.below front).join ⟨last⟩) = true
  · rcases blocked usable with walked | ⟨walked, isBlocked⟩
    · rw [walk_below isBase there each] at walked
      have thereLater := isDirectory_of_edits edits there
      have stays := walk_blocked_of_edits edits each
        (node?_ne_none_of_hasDirectory (isDirectory_iff.1 there).2) walked
      rw [← walk_below isBase thereLater each] at stays
      refine ⟨fun _ => .inl stays, ?_⟩
      rw [stays]
      exact fun both => nomatch both.1.2.1
    · have found := node?_ne_none_of_walk_root walked
      rw [freePlace_eq_blocked_iff isFileName.1] at isBlocked
      rw [walked] at absent
      have stays : later.hasDirectory (root.below front).place = true →
          isUsableName last = true →
            later.node? ((root.below front).place ++ [last]) ≠ none ∧
              later.hasDirectory ((root.below front).place ++ [last]) = false := by
        intro starts usableName
        refine taken_of_edits edits found (fun started => ?_) starts
        refine ⟨isBlocked started usableName, Bool.eq_false_iff.2 fun directory => ?_⟩
        exact absent ⟨⟨usable, rfl, started, usableName⟩, directory⟩
      refine ⟨fun _ => .inr ⟨walk_of_edits edits walked, ?_⟩, ?_⟩
      · exact (freePlace_eq_blocked_iff isFileName.1).2 fun starts usableName =>
          (stays starts usableName).1
      · rintro ⟨⟨-, -, starts, usableName⟩, directory⟩
        rw [(stays starts usableName).2] at directory
        cases directory
  · exact ⟨fun isUsable => absurd isUsable usable, fun both => usable both.1.1⟩

/-- A directory that cannot be made is in one that cannot be made, or blocked at its place. -/
theorem blocked_of_makeDirectories {front : List String}
    (each : ∀ name ∈ front, Path.IsFileName name) {last : String}
    (isFileName : Path.IsFileName last)
    (failed : before.makeDirectories ((root.below front).join ⟨last⟩) = (changed, false)) :
    before.makeDirectories (root.below front) = (changed, false) ∨
      changed.isDirectory root = true ∧
        changed.makeDirectory ((root.below front).join ⟨last⟩) = .error .blocked ∧
        changed.isDirectory ((root.below front).join ⟨last⟩) = false := by
  have isAbove := isBase.below each
  rw [makeDirectories_join isAbove isFileName] at failed
  cases first : before.makeDirectory ((root.below front).join ⟨last⟩) with
  | ok made =>
      rw [first] at failed
      cases failed
  | error fault =>
      rw [first] at failed
      cases fault with
      | blocked =>
          obtain ⟨rfl, absent⟩ := Prod.mk.inj failed
          exact .inr ⟨there, first, absent⟩
      | missing =>
          simp only at failed
          cases rest : before.makeDirectories (root.below front) with
          | mk between isMade =>
              rw [rest] at failed
              cases isMade with
              | false =>
                  obtain ⟨rfl, -⟩ := Prod.mk.inj failed
                  exact .inl rfl
              | true =>
                  have makes := makes_makeDirectories before (root.below front)
                  rw [rest] at makes
                  have above := isDirectory_below_of_makeDirectories isBase there each rest
                  simp only at failed
                  cases again : between.makeDirectory ((root.below front).join ⟨last⟩) with
                  | ok made =>
                      rw [again] at failed
                      cases failed
                  | error fault =>
                      rw [again] at failed
                      obtain ⟨rfl, absent⟩ := Prod.mk.inj failed
                      cases fault with
                      | missing =>
                          exact absurd again
                            (makeDirectory_join_ne_missing isAbove isFileName above)
                      | blocked =>
                          exact .inr ⟨isDirectory_of_edits makes there, again, absent⟩

/-- Directories that cannot all be made now cannot all be made later, and those of them that
can be made have been made. -/
theorem makeDirectories_stay_blocked {names : List String}
    (each : ∀ name ∈ names, Path.IsFileName name)
    (failed : before.makeDirectories (root.below names) = (changed, false))
    (edits : Edits made written changed later) :
    later.makeDirectories (root.below names) = (later, false) := by
  induction names using List.reverseRecOn generalizing changed with
  | nil =>
      rw [Path.below, List.foldl_nil, makeDirectories_of_isDirectory there] at failed
      cases failed
  | append_singleton front last inductionHypothesis =>
      obtain ⟨others, isLast⟩ := List.forall_mem_append.1 each
      have isFileName := List.forall_mem_singleton.1 isLast
      have isAbove := isBase.below others
      rw [Path.below_concat] at failed ⊢
      rcases blocked_of_makeDirectories isBase there others isFileName failed with
        rest | ⟨thereToo, blocked, absent⟩
      · exact makeDirectories_join_of_failed isAbove isFileName
          (inductionHypothesis others rest edits)
      · obtain ⟨staysBlocked, staysAbsent⟩ :=
          makeDirectory_stays_blocked isBase thereToo edits others isFileName blocked absent
        rw [makeDirectories_join isAbove isFileName]
        simp only [staysBlocked, staysAbsent]

end Obstacles

end AheadOfTime.FileTree
