import AheadOfTime.Document

/-!
# Tables under construction

The lines of a TOML text add to a tree of tables.  How a table came about decides
what may still be added to it: a header defines a table once, a table that is only
on the way to another may still be defined, and dotted keys may only go on in
tables that dotted keys made.
-/

namespace AheadOfTime.Toml

/-- How a table came about. -/
inductive Origin where
  | header
  | implied
  | dotted
  deriving DecidableEq

/-- What a key of a table stands for. -/
inductive Node where
  | value (document : Document)
  | table (origin : Origin) (entries : List (String × Node))
  | tables (elements : List (List (String × Node)))

/-- The entries of a table, in the order in which they were added. -/
abbrev Table := List (String × Node)

namespace Node

mutual

def toDocument : Node → Document
  | value document => document
  | table _ entries => .mapping (documents entries)
  | tables elements => .sequence (elementDocuments elements)

def documents : List (String × Node) → List (String × Document)
  | [] => []
  | entry :: entries => entryDocument entry :: documents entries

def entryDocument : String × Node → String × Document
  | (key, node) => (key, node.toDocument)

/-- The documents of the tables of an array. -/
def elementDocuments : List (List (String × Node)) → List Document
  | [] => []
  | element :: elements => .mapping (documents element) :: elementDocuments elements

end

end Node

namespace Table

def toDocument (entries : Table) : Document :=
  .mapping (Node.documents entries)

/-- The table with the node of a key replaced, or with a new entry at the end. -/
def set (key : String) (node : Node) : Table → Table
  | [] => [(key, node)]
  | (known, old) :: rest =>
      if known = key then (key, node) :: rest else (known, old) :: set key node rest

def erase (key : String) (entries : Table) : Table :=
  entries.filter fun entry => entry.1 != key

/-- Change the table at the end of a path, making the tables on the way that are
missing. With `dotted` the path is that of a dotted key, which must not enter a
table defined by a header; without it the path is that of a header. The last
element stands for an array of tables. -/
def change (dotted : Bool) (action : Origin → Table → Option (Table × α)) :
    (path : List String) → Origin → Table → Option (Table × α)
  | [], origin, entries => action origin entries
  | key :: path, _, entries =>
      match entries.lookup key with
      | none => do
          let origin := if dotted then .dotted else .implied
          let (inner, result) ← change dotted action path origin []
          return (set key (.table origin inner) entries, result)
      | some (.value _) => none
      | some (.table origin inner) =>
          if dotted && origin == .header then none else do
            let (inner, result) ← change dotted action path origin inner
            return (set key (.table origin inner) entries, result)
      | some (.tables elements) =>
          match elements.getLast? with
          | none => none
          | some last => do
              let (last, result) ← change dotted action path .header last
              return (set key (.tables (elements.dropLast ++ [last])) entries, result)

/-- Add a value under a key; the path before the last part is a dotted one. A key
can only be set once, and a dotted path must end in a table that dotted keys
made. -/
def addValue (entries : Table) (path : List String) (key : String) (document : Document) :
    Option Table := do
  let add (origin : Origin) (inner : Table) : Option (Table × Unit) :=
    if (origin == .dotted) == path.isEmpty then none
    else if (inner.lookup key).isSome then none
    else some (inner ++ [(key, .value document)], ())
  let (entries, _) ← change true add path .header entries
  return entries

/-- Take the table that a header names out of the tree, to add to it: an implied
table, or a new one. -/
def openTable (entries : Table) (path : List String) (key : String) :
    Option (Table × Table) :=
  let take (_ : Origin) (inner : Table) : Option (Table × Table) :=
    match inner.lookup key with
    | none => some (inner, [])
    | some (.table .implied known) => some (erase key inner, known)
    | some _ => none
  change false take path .header entries

/-- Make sure that a header of an array of tables names one. -/
def openElement (entries : Table) (path : List String) (key : String) : Option Table := do
  let find (_ : Origin) (inner : Table) : Option (Table × Unit) :=
    match inner.lookup key with
    | none => some (inner ++ [(key, .tables [])], ())
    | some (.tables _) => some (inner, ())
    | some _ => none
  let (entries, _) ← change false find path .header entries
  return entries

def closeTable (entries : Table) (path : List String) (key : String) (finished : Table) :
    Option Table := do
  let put (_ : Origin) (inner : Table) : Option (Table × Unit) :=
    match inner.lookup key with
    | none => some (inner ++ [(key, .table .header finished)], ())
    | some _ => none
  let (entries, _) ← change false put path .header entries
  return entries

def closeElement (entries : Table) (path : List String) (key : String) (finished : Table) :
    Option Table := do
  let put (_ : Origin) (inner : Table) : Option (Table × Unit) :=
    match inner.lookup key with
    | some (.tables elements) => some (set key (.tables (elements ++ [finished])) inner, ())
    | _ => none
  let (entries, _) ← change false put path .header entries
  return entries

end Table

end AheadOfTime.Toml
