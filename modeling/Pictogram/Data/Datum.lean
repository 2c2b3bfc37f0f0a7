/-!
Structured data, as a configuration file or a request holds it, and the reading of records from it.

A record may be given as a table of its fields or as a list of them in their order. Fields that are
missing take their defaults, and entries that are no fields are passed over.
-/

namespace Pictogram

/-- A piece of structured data. Numbers keep the text they are written in. -/
inductive Datum where
  | null
  | bool (value : Bool)
  | number (text : String)
  | text (value : String)
  | list (items : List Datum)
  | table (entries : List (String × Datum))
  deriving Repr, Inhabited

/-- The conventions of a data format that records depend on. -/
inductive DataFormat where
  | json
  | toml
  deriving DecidableEq, Repr

namespace DataFormat

/-- Whether a list may hold more than the fields of the record it stands for. -/
def allowsLongList : DataFormat → Bool
  | json => false
  | toml => true

/-- Whether a datum may stand beside the name of a choice that carries nothing. -/
def isUnit : DataFormat → Datum → Bool
  | json, .null => true
  | toml, .list [] => true
  | toml, .table [] => true
  | _, _ => false

end DataFormat

namespace Datum

/-- The entry of a table for a field with the given names. The answer is nothing if the field is
given more than once. -/
def field? (entries : List (String × Datum)) (names : List String) : Option (Option Datum) :=
  match entries.filter (names.contains ·.1) with
  | [] => some none
  | [(_, value)] => some (some value)
  | _ => none

/-- The fields of a record, each by its names, with those that are missing left open. -/
def fields? (format : DataFormat) (names : List (List String)) :
    Datum → Option (List (Option Datum))
  | table entries => names.mapM (field? entries)
  | list items =>
    if names.length < items.length && !format.allowsLongList then none
    else some (names.mapIdx fun i _ => items[i]?)
  | _ => none

/-- A truth value. -/
def bool? : Datum → Option Bool
  | bool value => some value
  | _ => none

/-- A text. -/
def text? : Datum → Option String
  | text value => some value
  | _ => none

/-- The name of a choice that carries nothing, given as a text or as the only key of a table. -/
def choice? (format : DataFormat) : Datum → Option String
  | text value => some value
  | table [(name, value)] => if format.isUnit value then some name else none
  | _ => none

/-- Reads a field, or takes its default if it is missing. -/
def orDefault {α : Type} (read? : Datum → Option α) (fallback : α) : Option Datum → Option α
  | some d => read? d
  | none => some fallback

end Datum

end Pictogram
