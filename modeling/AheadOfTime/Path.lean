import AheadOfTime.Text

/-!
# Paths

A path is the text it is written as; its components are a view of that text.
Repeated and trailing slashes, and a `.` that does not come first, are written
but are no components.
-/

namespace AheadOfTime

/-- A path as it is written. -/
structure Path where
  text : String
  deriving DecidableEq

inductive Component where
  | root
  | here
  | up
  | name (text : String)
  deriving DecidableEq

namespace Component

def text : Component → String
  | root => "/"
  | here => "."
  | up => ".."
  | name text => text

/-- The place of a component's kind in the order of components. -/
def rank : Component → Nat
  | root => 0
  | here => 1
  | up => 2
  | name _ => 3

/-- The order of components: by kind, and names by their code points. -/
def precedes : Component → Component → Bool
  | name left, name right => decide (left < right)
  | left, right => left.rank < right.rank

end Component

namespace Path

/-- A part of a path that leads from a directory into it. -/
def IsName (part : String) : Prop :=
  part ≠ "" ∧ part ≠ "." ∧ part ≠ ".."

instance (part : String) : Decidable (IsName part) :=
  inferInstanceAs (Decidable (_ ∧ _ ∧ _))

def IsFileName (name : String) : Prop :=
  IsName name ∧ '/' ∉ name.toList

instance (name : String) : Decidable (IsFileName name) :=
  inferInstanceAs (Decidable (IsName _ ∧ _))

def isAbsolute (path : Path) : Bool :=
  path.text.toList.head? == some '/'

/-- What a part between slashes stands for, when it is not the first one of a
relative path. -/
def componentOf? (part : String) : Option Component :=
  if part = "" then none
  else if part = "." then none
  else if part = ".." then some .up
  else some (.name part)

def parts (path : Path) : List String :=
  (Text.split '/' path.text.toList).map String.ofList

def components (path : Path) : List Component :=
  match path.parts with
  | [] => []
  | first :: rest =>
      let start : Option Component :=
        if path.isAbsolute then some .root
        else if first = "." then some .here
        else componentOf? first
      start.toList ++ rest.filterMap componentOf?

/-- The order of paths: component by component, a shorter path first. -/
def componentsPrecede : List Component → List Component → Bool
  | _, [] => false
  | [], _ :: _ => true
  | left :: lefts, right :: rights =>
      left.precedes right || (left == right && componentsPrecede lefts rights)

/-- Whether a path comes before another by components. -/
def precedes (left right : Path) : Bool :=
  componentsPrecede left.components right.components

/-- The path at `inner` seen from `base`: an absolute path replaces the base, and
a slash is put between the two unless the base ends in one or is empty. -/
def join (base inner : Path) : Path :=
  if inner.isAbsolute then
    inner
  else if base.text.isEmpty || base.text.toList.getLast? == some '/' then
    ⟨base.text ++ inner.text⟩
  else
    ⟨base.text ++ "/" ++ inner.text⟩

def ofNames (names : List String) : Path :=
  names.foldl (fun path name => path.join ⟨name⟩) ⟨""⟩

def ofComponents : List Component → Path
  | [] => ⟨""⟩
  | .root :: rest => ⟨"/" ++ "/".intercalate (rest.map Component.text)⟩
  | components => ⟨"/".intercalate (components.map Component.text)⟩

/-- Whether a part adds no component: it is empty or a dot. -/
def isSilent (part : List Char) : Bool :=
  part == [] || part == ['.']

/-- The text of a path up to its last component that counts, without what
follows it. -/
def dropSilentEnd (text : List Char) : List Char :=
  let kept := ((Text.split '/' text).reverse.dropWhile isSilent).reverse
  Text.join ['/'] kept

/-- The path one component up: the text before the last component, without the
slashes and dots between. The root and the empty path have none. -/
def parent? (path : Path) : Option Path :=
  match path.components.getLast? with
  | none => none
  | some .root => none
  | some .here => some ⟨""⟩
  | some _ =>
      let text := path.text.toList
      let shortened := Text.join ['/'] (Text.split '/' (dropSilentEnd text)).dropLast
      let trimmed := dropSilentEnd shortened
      if trimmed.isEmpty then
        if path.isAbsolute then some ⟨"/"⟩
        else if path.components.head? == some .here then some ⟨"."⟩
        else some ⟨""⟩
      else
        some ⟨String.ofList trimmed⟩

/-- The name a path ends in, unless it ends in a dot pair or at the root. -/
def fileName? (path : Path) : Option String :=
  match path.components.getLast? with
  | some (.name text) => some text
  | _ => none

/-- What follows the last dot of the file name; a dot that comes first does not
count. -/
def extension? (path : Path) : Option String :=
  match path.fileName? with
  | none => none
  | some name =>
      match (Text.split '.' name.toList).reverse with
      | [] => none
      | [_] => none
      | [_, []] => none
      | last :: _ => some (String.ofList last)

/-- The rest of a path's components after those of `base`, if it starts with
them. -/
def stripComponents? : List Component → List Component → Option (List Component)
  | rest, [] => some rest
  | [], _ :: _ => none
  | first :: rest, expected :: base =>
      if first = expected then stripComponents? rest base else none

end Path

end AheadOfTime
