import Pictogram.Data.Datum

/-!
The tables of a TOML document. Keys may be dotted, tables may be opened by a header, and each table
is defined in one place only: what a header has opened, another header or a dotted key from outside
does not reopen, and a value in braces or brackets is complete as it stands.
-/

namespace Pictogram.Toml

/-- How a table came into being. -/
inductive Origin where
  /-- On the way to a table below it, whose header names it. -/
  | passed
  /-- On the way to a key below it, which a dotted key names. -/
  | dotted
  /-- By a header of its own. -/
  | opened
  deriving DecidableEq, Repr

/-- What a key of a table leads to while the document is read. -/
inductive Item where
  | value (value : Datum)
  | table (origin : Origin) (entries : List (String × Item))
  /-- Tables that are opened by headers in double brackets, the last one first. -/
  | tables (tables : List (List (String × Item)))

/-- The entries of a table while the document is read. -/
abbrev Entries := List (String × Item)

/-- Puts an item in place of the one that a key leads to. -/
def replaceItem (entries : Entries) (key : String) (item : Item) : Entries :=
  entries.map fun (name, old) => if name = key then (name, item) else (name, old)

/-- Adds a value under a dotted key, whose parts before the last are `path`. -/
def addValue (path : List String) (key : String) (value : Datum) (origin : Option Origin)
    (entries : Entries) : Option Entries :=
  match path with
  | [] =>
    -- A dotted key ends in a table that dotted keys alone have made.
    if origin = some .passed || origin = some .opened then none
    else if (entries.lookup key).isSome then none
    else some (entries ++ [(key, .value value)])
  | name :: path =>
    match entries.lookup name with
    | none => do
      let inner ← addValue path key value (some .dotted) []
      return entries ++ [(name, .table .dotted inner)]
    | some (.table .opened _) => none
    | some (.table origin inner) => do
      let inner ← addValue path key value (some origin) inner
      return replaceItem entries name (.table origin inner)
    | some (.tables (last :: earlier)) => do
      let last ← addValue path key value (some .opened) last
      return replaceItem entries name (.tables (last :: earlier))
    | some (.tables []) => none
    | some (.value _) => none

/-- A key with its value: the parts before the last, the last, and the value. -/
structure Pair where
  path : List String
  key : String
  value : Datum

/-- Adds pairs in order. -/
def addPairs (entries : Entries) (pairs : List Pair) : Option Entries :=
  pairs.foldlM (fun entries p => addValue p.path p.key p.value none entries) entries

/-- A part of a document: the pairs before the first header, or a header with the pairs behind it.
The path of a header is split like that of a pair. -/
inductive Section where
  | front (pairs : List Pair)
  | table (path : List String) (key : String) (pairs : List Pair)
  | tables (path : List String) (key : String) (pairs : List Pair)

/-- Changes the table that a header leads to on its way. -/
def within (change : Entries → Option Entries) : List String → Entries → Option Entries
  | [], entries => change entries
  | name :: path, entries =>
    match entries.lookup name with
    | none => do
      let inner ← within change path []
      return entries ++ [(name, .table .passed inner)]
    | some (.table origin inner) => do
      let inner ← within change path inner
      return replaceItem entries name (.table origin inner)
    | some (.tables (last :: earlier)) => do
      let last ← within change path last
      return replaceItem entries name (.tables (last :: earlier))
    | some (.tables []) => none
    | some (.value _) => none

/-- Adds a part of the document. -/
def addSection (entries : Entries) : Section → Option Entries
  | .front pairs => addPairs entries pairs
  | .table path key pairs =>
    within (fun entries => do
      match entries.lookup key with
      | none => return entries ++ [(key, .table .opened (← addPairs [] pairs))]
      | some (.table .passed inner) =>
        return replaceItem entries key (.table .opened (← addPairs inner pairs))
      | some _ => none) path entries
  | .tables path key pairs =>
    within (fun entries => do
      match entries.lookup key with
      | none => return entries ++ [(key, .tables [← addPairs [] pairs])]
      | some (.tables earlier) =>
        return replaceItem entries key (.tables ((← addPairs [] pairs) :: earlier))
      | some _ => none) path entries

mutual

/-- The data of an item. -/
def Item.datum : Item → Datum
  | .value value => value
  | .table _ entries => .table (entriesData entries)
  | .tables tables => .list (tablesData tables).reverse

/-- The data of a table's entries. -/
def entriesData : List (String × Item) → List (String × Datum)
  | [] => []
  | (name, item) :: rest => (name, item.datum) :: entriesData rest

/-- The data of several tables. -/
def tablesData : List (List (String × Item)) → List Datum
  | [] => []
  | entries :: rest => .table (entriesData entries) :: tablesData rest

end

/-- The table of a whole document; there is none if something is defined twice. -/
def ofSections? (sections : List Section) : Option Datum :=
  (sections.foldlM addSection []).map fun entries => .table (entriesData entries)

/-- The table that pairs in braces make. -/
def inlineTable? (pairs : List Pair) : Option Datum :=
  (addPairs [] pairs).map fun entries => .table (entriesData entries)

end Pictogram.Toml
