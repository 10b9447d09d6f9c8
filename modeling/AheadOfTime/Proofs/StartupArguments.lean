import AheadOfTime.Proofs.FileTree.Repeats
import AheadOfTime.Proofs.FileTree.Ways

/-!
# Writing startup arguments

The file of startup arguments is written where nothing is, kept where it is as expected, and
otherwise replaced only if the settings say so.  Whatever has been done is not done again: the
file is kept in a second run, or stale again.

Nothing is there when the path of the file leads nowhere.  A path that goes up from a directory
that is missing leads nowhere, whatever is where it would lead.
-/

namespace AheadOfTime

namespace FileTree

theorem fromUTF8?_eq_some_iff {bytes : ByteArray} {text : String} :
    String.fromUTF8? bytes = some text ↔ bytes = text.toUTF8 := by
  constructor
  · intro reads
    unfold String.fromUTF8? at reads
    split at reads
    · rw [← Option.some.inj reads]
      rfl
    · cases reads
  · rintro rfl
    exact dif_pos text.isValidUTF8

theorem readText?_eq_some_iff {tree : FileTree} {path : Path} {text : String} :
    tree.readText? path = some text ↔ tree.read? path = some text.toUTF8 := by
  rw [readText?, Option.bind_eq_some_iff]
  constructor
  · rintro ⟨bytes, reads, isText⟩
    rw [reads, fromUTF8?_eq_some_iff.1 isText]
  · intro reads
    exact ⟨text.toUTF8, reads, fromUTF8?_eq_some_iff.2 rfl⟩

theorem contains_of_read? {tree : FileTree} {path : Path} {contents : ByteArray}
    (reads : tree.read? path = some contents) : tree.contains path = true := by
  rw [read?] at reads
  rw [contains]
  cases found : tree.find? path with
  | none =>
      rw [found] at reads
      cases reads
  | some node =>
      rfl

end FileTree

namespace StartupArguments

def expected (settings : Settings) : String :=
  text settings.application.canonical

/-- How writing ends, by what the path of the file leads to. -/
inductive Ends (settings : Settings) (tree : FileTree) : Except Path Outcome → FileTree → Prop where
  | absent {result : Except Path Outcome} {after : FileTree}
      (nothing : tree.contains (path settings) = false)
      (writes : writeAs .written settings tree = (result, after)) : Ends settings tree result after
  | unreadable (there : tree.contains (path settings) = true)
      (unread : tree.readText? (path settings) = none) :
      Ends settings tree (.error (path settings)) tree
  | same (reads : tree.readText? (path settings) = some (expected settings)) :
      Ends settings tree (.ok .kept) tree
  | spared {existing : String} (reads : tree.readText? (path settings) = some existing)
      (other : existing ≠ expected settings) (spares : settings.overwrite = false) :
      Ends settings tree (.ok .stale) tree
  | replaced {result : Except Path Outcome} {after : FileTree} {existing : String}
      (reads : tree.readText? (path settings) = some existing)
      (other : existing ≠ expected settings) (replaces : settings.overwrite = true)
      (writes : writeAs .refreshed settings tree = (result, after)) :
      Ends settings tree result after

theorem write_eq_iff {settings : Settings} {tree after : FileTree}
    {result : Except Path Outcome} :
    write settings tree = (result, after) ↔ Ends settings tree result after := by
  constructor
  · intro ends
    unfold write at ends
    split at ends
    · rename_i nothing
      exact .absent (by simpa using nothing) ends
    · rename_i there
      split at ends
      · rename_i unread
        obtain ⟨rfl, rfl⟩ := Prod.mk.inj ends
        exact .unreadable (by simpa using there) unread
      · rename_i existing reads
        split at ends
        · rename_i same
          obtain ⟨rfl, rfl⟩ := Prod.mk.inj ends
          exact .same (reads.trans (congrArg some same))
        · rename_i other
          split at ends
          · rename_i spares
            obtain ⟨rfl, rfl⟩ := Prod.mk.inj ends
            exact .spared reads other (by simpa using spares)
          · rename_i replaces
            exact .replaced reads other (by simpa using replaces) ends
  · intro ends
    have there {text : String} (reads : tree.readText? (path settings) = some text) :
        tree.contains (path settings) = true :=
      FileTree.contains_of_read? (FileTree.readText?_eq_some_iff.1 reads)
    cases ends with
    | absent nothing writes =>
        simp only [write, nothing, Bool.not_false, if_true]
        exact writes
    | unreadable there unread =>
        simp only [write, there, unread, Bool.not_true, Bool.false_eq_true, if_false]
    | same reads =>
        simp only [write, there reads, reads, Bool.not_true, Bool.false_eq_true, if_false]
        exact if_pos rfl
    | spared reads other spares =>
        simp only [write, there reads, reads, spares, Bool.not_true, Bool.not_false,
          Bool.false_eq_true, if_false, if_true]
        exact if_neg other
    | replaced reads other replaces writes =>
        simp only [write, there reads, reads, replaces, Bool.not_true, Bool.false_eq_true,
          if_false]
        exact (if_neg other).trans writes

section Writing

variable {settings : Settings} {tree after : FileTree} {outcome kind : Outcome}

theorem exists_of_writeAs {result : Except Path Outcome}
    (writes : writeAs outcome settings tree = (result, after)) :
    ∃ done, tree.writeFile (path settings) (expected settings).toUTF8 = (done, after) ∧
      result = done.map fun _ => outcome := by
  unfold writeAs FileTree.writeText at writes
  rw [← expected] at writes
  generalize tree.writeFile (path settings) (expected settings).toUTF8 = written at *
  obtain ⟨done, changed⟩ := written
  cases done with
  | error obstacle =>
      obtain ⟨rfl, rfl⟩ := Prod.mk.inj writes
      exact ⟨_, rfl, rfl⟩
  | ok done =>
      obtain ⟨rfl, rfl⟩ := Prod.mk.inj writes
      exact ⟨_, rfl, rfl⟩

/-- A file that has been written holds the text that is expected. -/
theorem of_writeAs (writes : writeAs outcome settings tree = (.ok kind, after)) :
    kind = outcome ∧
      tree.writeFile (path settings) (expected settings).toUTF8 = (.ok (), after) := by
  obtain ⟨done, written, same⟩ := exists_of_writeAs writes
  cases done with
  | error obstacle =>
      cases same
  | ok done =>
      exact ⟨Except.ok.inj same, written⟩

/-- Nothing changes, or the file is written. -/
theorem Ends.same_or_written {result : Except Path Outcome}
    (ends : Ends settings tree result after) :
    after = tree ∨ ∃ done outcome,
      tree.writeFile (path settings) (expected settings).toUTF8 = (done, after) ∧
        result = done.map fun _ => outcome := by
  cases ends with
  | absent nothing writes =>
      obtain ⟨done, written, same⟩ := exists_of_writeAs writes
      exact .inr ⟨done, .written, written, same⟩
  | unreadable there unread =>
      exact .inl rfl
  | same reads =>
      exact .inl rfl
  | spared reads other spares =>
      exact .inl rfl
  | replaced reads other replaces writes =>
      obtain ⟨done, written, same⟩ := exists_of_writeAs writes
      exact .inr ⟨done, .refreshed, written, same⟩

theorem writes_write (settings : Settings) (tree : FileTree) :
    FileTree.Writes [path settings] tree (write settings tree).2 := by
  have ends : Ends settings tree (write settings tree).1 (write settings tree).2 :=
    write_eq_iff.1 rfl
  rcases ends.same_or_written with same | ⟨done, outcome, written, -⟩
  · rw [same]
    exact .refl _ tree
  · have writes := FileTree.writes_writeFile tree (path settings) (expected settings).toUTF8
    rw [written] at writes
    exact writes

/-- The file is there in the end, written or left as it was. -/
theorem exists_read?_of_write (ends : write settings tree = (.ok kind, after)) :
    ∃ contents, after.read? (path settings) = some contents := by
  cases write_eq_iff.1 ends with
  | absent nothing writes =>
      exact ⟨_, FileTree.of_writeFile (of_writeAs writes).2⟩
  | same reads =>
      exact ⟨_, FileTree.readText?_eq_some_iff.1 reads⟩
  | spared reads other spares =>
      exact ⟨_, FileTree.readText?_eq_some_iff.1 reads⟩
  | replaced reads other replaces writes =>
      exact ⟨_, FileTree.of_writeFile (of_writeAs writes).2⟩

/-- A file that has been written or kept is kept in a later run, and one that was stale is
stale again. -/
theorem write_again {later : FileTree} (ends : write settings tree = (.ok kind, after))
    (same : later.read? (path settings) = after.read? (path settings)) :
    write settings later = (.ok (if kind = .stale then .stale else .kept), later) := by
  have written (outcome : Outcome) (notStale : outcome ≠ .stale)
      (writes : writeAs outcome settings tree = (.ok kind, after)) :
      Ends settings later (.ok (if kind = .stale then .stale else .kept)) later := by
    obtain ⟨rfl, written⟩ := of_writeAs writes
    rw [if_neg notStale]
    refine .same (FileTree.readText?_eq_some_iff.2 ?_)
    rw [same]
    exact FileTree.of_writeFile written
  rw [write_eq_iff]
  cases write_eq_iff.1 ends with
  | absent nothing writes =>
      exact written .written (by decide) writes
  | same reads =>
      refine .same ?_
      rw [FileTree.readText?, same]
      exact reads
  | spared reads other spares =>
      refine .spared ?_ other spares
      rw [FileTree.readText?, same]
      exact reads
  | replaced reads other replaces writes =>
      exact written .refreshed (by decide) writes

/-- Startup arguments are written where there is room for them and no file. -/
theorem exists_write (room : tree.HasRoom (path settings))
    (free : tree.contents? (path settings).place = none) :
    ∃ after, write settings tree = (.ok .written, after) ∧
      FileTree.OnlyWrites [path settings] tree after := by
  have nothing : tree.node? (path settings).place = none := by
    have noDirectory := room.free
    rw [FileTree.contents?] at free
    cases found : tree.node? (path settings).place with
    | none =>
        rfl
    | some node =>
        rw [found] at free noDirectory
        cases node with
        | directory =>
            exact absurd rfl noDirectory
        | file contents =>
            cases free
  have absent : tree.contains (path settings) = false := by
    rw [FileTree.contains, FileTree.find?]
    cases leads : tree.locate? (path settings) with
    | none =>
        rfl
    | some place =>
        rw [FileTree.place_of_locate? leads, Option.bind_some, nothing]
        rfl
  have writes : writeAs .written settings tree =
      (.ok .written, tree.put (path settings).place (.file (expected settings).toUTF8)) := by
    unfold writeAs FileTree.writeText
    rw [FileTree.writeFile_of_hasRoom room]
    rfl
  exact ⟨_, write_eq_iff.2 (.absent absent writes), FileTree.onlyWrites_put room _⟩

end Writing

/-! ## Protocol -/

/-- What an outcome tells about the file before and after. -/
def Outcome.Tells (settings : Settings) (before after : FileTree) : Outcome → Prop
  | .written =>
      before.contains (path settings) = false ∧
        (before.node? (path settings).place = none ∨
          before.GoesUpFromNowhere (path settings)) ∧
        after.read? (path settings) = some (expected settings).toUTF8
  | .kept =>
      before.read? (path settings) = some (expected settings).toUTF8 ∧ after = before
  | .stale =>
      settings.overwrite = false ∧ after = before ∧
        ∃ existing : String, before.read? (path settings) = some existing.toUTF8 ∧
          existing ≠ expected settings
  | .refreshed =>
      settings.overwrite = true ∧
        after.read? (path settings) = some (expected settings).toUTF8 ∧
        ∃ existing : String, before.read? (path settings) = some existing.toUTF8 ∧
          existing ≠ expected settings

/-- What writing does to a tree, tells about it and does to it when it is done again. -/
structure Protocol (settings : Settings) (before after : FileTree)
    (result : Except Path Outcome) : Prop where
  /-- All stays but the file, and directories that are made above it. -/
  places : ∀ place, after.node? place = before.node? place ∨
    (path settings).VisitsAbove place ∧ before.node? place = none ∧
      after.node? place = some .directory ∨
    place = (path settings).place ∧ (∃ outcome, result = .ok outcome) ∧
      after.node? place = some (.file (expected settings).toUTF8)
  tells : ∀ outcome, result = .ok outcome → outcome.Tells settings before after
  again : ∀ outcome, result = .ok outcome →
    write settings after = (.ok (if outcome = .stale then .stale else .kept), after)
  /-- A file that is there and is no text is an error. -/
  unreadable : before.contains (path settings) = true →
    before.readText? (path settings) = none → result = .error (path settings) ∧ after = before
  same : before.read? (path settings) = some (expected settings).toUTF8 → result = .ok .kept
  /-- Whatever is there stays, unless the settings say otherwise. -/
  spared : before.contains (path settings) = true → settings.overwrite = false → after = before

section Protocol

variable {settings : Settings} {before after : FileTree} {result : Except Path Outcome}

/-- Where the file can be written though its path has led nowhere, nothing has been, unless the
path goes up from where it has led nowhere. -/
theorem node?_eq_none_or_goesUpFromNowhere (nothing : before.contains (path settings) = false)
    (written : before.writeFile (path settings) (expected settings).toUTF8 = (.ok (), after)) :
    before.node? (path settings).place = none ∨ before.GoesUpFromNowhere (path settings) := by
  obtain ⟨leads, -⟩ := FileTree.of_read? (FileTree.of_writeFile written)
  have edits := FileTree.writes_writeFile before (path settings) (expected settings).toUTF8
  rw [written] at edits
  by_cases there : before.node? (path settings).place = none
  · exact .inl there
  refine .inr ((FileTree.leads_or_goesUpFromNowhere edits leads there).resolve_left ?_)
  intro leadsBefore
  rw [FileTree.contains, FileTree.find?, leadsBefore, Option.bind_some,
    Option.isSome_eq_false_iff, Option.isNone_iff_eq_none] at nothing
  exact there nothing

theorem Ends.tells {outcome : Outcome} (ends : Ends settings before (.ok outcome) after) :
    outcome.Tells settings before after := by
  cases ends with
  | absent nothing writes =>
      obtain ⟨rfl, written⟩ := of_writeAs writes
      exact ⟨nothing, node?_eq_none_or_goesUpFromNowhere nothing written,
        FileTree.of_writeFile written⟩
  | same reads =>
      exact ⟨FileTree.readText?_eq_some_iff.1 reads, rfl⟩
  | spared reads other spares =>
      exact ⟨spares, rfl, _, FileTree.readText?_eq_some_iff.1 reads, other⟩
  | replaced reads other replaces writes =>
      obtain ⟨rfl, written⟩ := of_writeAs writes
      exact ⟨replaces, FileTree.of_writeFile written, _,
        FileTree.readText?_eq_some_iff.1 reads, other⟩

theorem Ends.places (ends : Ends settings before result after) (place : Place) :
    after.node? place = before.node? place ∨
      (path settings).VisitsAbove place ∧ before.node? place = none ∧
        after.node? place = some .directory ∨
      place = (path settings).place ∧ (∃ outcome, result = .ok outcome) ∧
        after.node? place = some (.file (expected settings).toUTF8) := by
  rcases ends.same_or_written with same | ⟨done, outcome, written, isResult⟩
  · rw [same]
    exact .inl rfl
  · refine (FileTree.node?_of_writeFile written place).imp_right (Or.imp_right ?_)
    rintro ⟨here, isDone, holds⟩
    rw [isDone] at isResult
    exact ⟨here, ⟨outcome, isResult⟩, holds⟩

/-- Writing startup arguments follows the protocol, whatever the settings and the tree are. -/
theorem write_follows_protocol (settings : Settings) (before : FileTree) :
    Protocol settings before (write settings before).2 (write settings before).1 := by
  cases run : write settings before with
  | mk result after =>
      have ends : Ends settings before result after := write_eq_iff.1 run
      refine ⟨ends.places, ?_, ?_, ?_, ?_, ?_⟩
      · rintro outcome rfl
        exact ends.tells
      · rintro outcome rfl
        exact write_again run rfl
      · intro there unread
        exact Prod.mk.inj (run.symm.trans (write_eq_iff.2 (.unreadable there unread)))
      · intro holds
        have kept : Ends settings before (.ok .kept) before :=
          .same (FileTree.readText?_eq_some_iff.2 holds)
        exact (Prod.mk.inj (run.symm.trans (write_eq_iff.2 kept))).1
      · intro there spares
        cases ends with
        | absent nothing writes =>
            rw [there] at nothing
            cases nothing
        | unreadable there unread =>
            rfl
        | same reads =>
            rfl
        | spared reads other spares =>
            rfl
        | replaced reads other replaces writes =>
            rw [spares] at replaces
            cases replaces

end Protocol

end StartupArguments

end AheadOfTime
