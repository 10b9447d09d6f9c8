import AheadOfTime.Path

/-!
# File trees

A file tree says what stands at each place.  A place is the list of the names that
lead to it from the root; the root itself is always a directory.  Walking a path
through a tree gives the place that it leads to.
-/

namespace AheadOfTime

/-- The names that lead to a place from the root. -/
abbrev Place := List String

namespace Path

/-- Where a part of a path leads from a place, whatever stands there. -/
def stepPlace (place : Place) (part : String) : Place :=
  if part = "" ∨ part = "." then place
  else if part = ".." then place.dropLast
  else place ++ [part]

def placeFrom (start : Place) (parts : List String) : Place :=
  parts.foldl stepPlace start

def place (path : Path) : Place :=
  placeFrom [] path.parts

end Path

/-- What stands at a place. -/
inductive Node where
  | directory
  | file (contents : ByteArray)

instance : DecidableEq Node
  | .directory, .directory => isTrue rfl
  | .directory, .file _ => isFalse nofun
  | .file _, .directory => isFalse nofun
  | .file left, .file right =>
      match ByteArray.instDecidableEq left right with
      | isTrue same => isTrue (congrArg Node.file same)
      | isFalse different => isFalse fun same => different (Node.file.inj same)

/-- What entries say about a place. The root is a directory without being one of them. -/
def nodeAt? (entries : List (Place × Node)) (place : Place) : Option Node :=
  if place = [] then some .directory else entries.lookup place

/-- What stands at the places below the root: one node at a place, and each of them in a
directory. -/
structure FileTree where
  entries : List (Place × Node)
  below : ∀ entry ∈ entries, entry.1 ≠ []
  distinct : (entries.map Prod.fst).Nodup
  named : ∀ entry ∈ entries, ∀ name ∈ entry.1, Path.IsFileName name
  rooted : ∀ entry ∈ entries, nodeAt? entries entry.1.dropLast = some .directory

namespace FileTree

/-- The tree in which nothing stands below the root. -/
def empty : FileTree where
  entries := []
  below := nofun
  distinct := .nil
  named := nofun
  rooted := nofun

def node? (tree : FileTree) (place : Place) : Option Node :=
  nodeAt? tree.entries place

def hasDirectory (tree : FileTree) (place : Place) : Bool :=
  tree.node? place == some .directory

/-- Whether a node can be put at a place: it is in a directory, and is none itself. -/
structure Admits (tree : FileTree) (place : Place) : Prop where
  below : place ≠ []
  named : ∀ name ∈ place, Path.IsFileName name
  parent : tree.hasDirectory place.dropLast = true
  free : tree.hasDirectory place = false

instance (tree : FileTree) (place : Place) : Decidable (tree.Admits place) :=
  decidable_of_iff (place ≠ [] ∧ (∀ name ∈ place, Path.IsFileName name) ∧
      tree.hasDirectory place.dropLast = true ∧ tree.hasDirectory place = false)
    ⟨fun ⟨below, named, parent, free⟩ => ⟨below, named, parent, free⟩,
      fun admits => ⟨admits.below, admits.named, admits.parent, admits.free⟩⟩

/-- Entries that are left out are not looked up at a place whose own entry is kept. -/
theorem nodeAt?_filter (kept : Place → Bool) {place : Place} (isKept : kept place = true)
    (entries : List (Place × Node)) :
    nodeAt? (entries.filter fun entry => kept entry.1) place = nodeAt? entries place := by
  have looked : (entries.filter fun entry => kept entry.1).lookup place =
      entries.lookup place := by
    induction entries with
    | nil =>
        rfl
    | cons entry entries inductionHypothesis =>
        obtain ⟨found, node⟩ := entry
        by_cases same : place = found
        · rw [← same, List.filter_cons, if_pos isKept, List.lookup_cons_self,
            List.lookup_cons_self]
        · have unlike : (place == found) = false := beq_eq_false_iff_ne.2 same
          rw [List.filter_cons, List.lookup_cons, unlike]
          split
          · rw [List.lookup_cons, unlike]
            exact inductionHypothesis
          · exact inductionHypothesis
  rw [nodeAt?, nodeAt?, looked]

theorem distinct_filter (tree : FileTree) (kept : Place × Node → Bool) :
    ((tree.entries.filter kept).map Prod.fst).Nodup :=
  tree.distinct.sublist (List.filter_sublist.map Prod.fst)

def entriesWith (tree : FileTree) (place : Place) (node : Node) : List (Place × Node) :=
  (place, node) :: tree.entries.filter fun entry => entry.1 != place

theorem nodeAt?_entriesWith (tree : FileTree) {place : Place} (below : place ≠ [])
    (node : Node) (other : Place) :
    nodeAt? (tree.entriesWith place node) other =
      if other = place then some node else tree.node? other := by
  by_cases same : other = place
  · rw [if_pos same, same, nodeAt?, if_neg below]
    exact List.lookup_cons_self
  · have unlike : (other == place) = false := beq_eq_false_iff_ne.2 same
    have kept := nodeAt?_filter (· != place) (bne_iff_ne.2 same) tree.entries
    rw [if_neg same, node?, ← kept, nodeAt?, nodeAt?, entriesWith, List.lookup_cons, unlike]

/-- Put a node at a place that admits one. At another place nothing changes. -/
def put (tree : FileTree) (place : Place) (node : Node) : FileTree :=
  if admits : tree.Admits place then
    { entries := tree.entriesWith place node
      below := by
        rw [entriesWith, List.forall_mem_cons]
        exact ⟨admits.below, fun entry member => tree.below entry (List.mem_filter.1 member).1⟩
      distinct := by
        rw [entriesWith, List.map_cons, List.nodup_cons]
        refine ⟨fun again => ?_, tree.distinct_filter _⟩
        obtain ⟨entry, member, same⟩ := List.mem_map.1 again
        exact bne_iff_ne.1 (List.mem_filter.1 member).2 same
      named := by
        rw [entriesWith, List.forall_mem_cons]
        exact ⟨admits.named, fun entry member => tree.named entry (List.mem_filter.1 member).1⟩
      rooted := by
        -- no entry is in the place itself, where no directory has been
        have stays : ∀ above, tree.hasDirectory above = true →
            nodeAt? (tree.entriesWith place node) above = some .directory := by
          intro above directory
          have apart : above ≠ place := by
            rintro rfl
            rw [admits.free] at directory
            cases directory
          rw [nodeAt?_entriesWith tree admits.below, if_neg apart]
          exact beq_iff_eq.1 directory
        rw [entriesWith, List.forall_mem_cons, ← entriesWith]
        exact ⟨stays _ admits.parent, fun entry member =>
          stays _ (beq_iff_eq.2 (tree.rooted entry (List.mem_filter.1 member).1))⟩ }
  else
    tree

def remove (tree : FileTree) (place : Place) : FileTree where
  entries := tree.entries.filter fun entry => !place.isPrefixOf entry.1
  below := fun entry member => tree.below entry (List.mem_filter.1 member).1
  distinct := tree.distinct_filter _
  named := fun entry member => tree.named entry (List.mem_filter.1 member).1
  rooted := by
    intro entry member
    obtain ⟨there, outside⟩ := List.mem_filter.1 member
    rw [nodeAt?_filter fun other => !place.isPrefixOf other]
    · exact tree.rooted entry there
    · rw [Bool.not_eq_true'] at outside ⊢
      rw [Bool.eq_false_iff] at outside ⊢
      intro inside
      exact outside (List.isPrefixOf_iff_prefix.2
        ((List.isPrefixOf_iff_prefix.1 inside).trans (List.dropLast_prefix _)))

/-- Why a path leads nowhere: a name is not there, or the way is blocked, by a file
where a directory has to be or by a name that nothing can have. -/
inductive WalkFault where
  | missing
  | blocked
  deriving DecidableEq

/-- The largest number of bytes in a name. -/
def nameLimit : Nat := 255

def isUsableName (name : String) : Bool :=
  decide (name.utf8ByteSize ≤ nameLimit)

/-- Whether a path can be asked for: it has text, but no zero character. -/
def isUsablePath (path : Path) : Bool :=
  path.text != "" && !path.text.toList.contains '\x00'

/-- Where a part of a path leads from a place. Any part needs a directory there. -/
def step (tree : FileTree) (place : Place) (part : String) : Except WalkFault Place :=
  if !tree.hasDirectory place then .error .blocked
  else if part = "" || part = "." then .ok place
  else if part = ".." then .ok place.dropLast
  else if !isUsableName part then .error .blocked
  else
    match tree.node? (place ++ [part]) with
    | some _ => .ok (place ++ [part])
    | none => .error .missing

def walk (tree : FileTree) : Place → List String → Except WalkFault Place
  | place, [] => .ok place
  | place, part :: parts =>
      match tree.step place part with
      | .error fault => .error fault
      | .ok next => walk tree next parts

def locate? (tree : FileTree) (path : Path) : Option Place :=
  if isUsablePath path then (tree.walk [] path.parts).toOption else none

def find? (tree : FileTree) (path : Path) : Option Node :=
  (tree.locate? path).bind tree.node?

def contains (tree : FileTree) (path : Path) : Bool :=
  (tree.find? path).isSome

def isDirectory (tree : FileTree) (path : Path) : Bool :=
  tree.find? path == some .directory

def read? (tree : FileTree) (path : Path) : Option ByteArray :=
  match tree.find? path with
  | some (.file contents) => some contents
  | _ => none

def isFile (tree : FileTree) (path : Path) : Bool :=
  (tree.read? path).isSome

def readText? (tree : FileTree) (path : Path) : Option String :=
  (tree.read? path).bind String.fromUTF8?

end FileTree

end AheadOfTime
