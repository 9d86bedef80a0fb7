/-!
# TOML values and tables

The value that a TOML document stands for. Booleans, floating point numbers and dates are valid
values that no setting of an ensemble reads, so only their kind is kept.

Tables remember how they came to be, because that decides who may add to them: a table that a
header names is complete with its section, one that was only passed through on the way to another
header may still get a header of its own, one that dotted keys made may get further dotted keys,
and one in braces is closed.
-/

namespace MeshFormation.Toml

/-- The kinds of value that no setting reads. -/
inductive OtherKind where
  | boolean
  | float
  | dateTime
deriving DecidableEq

/-- How a table came to be. -/
inductive Origin where
  /-- By a header with its name. -/
  | header
  /-- On the way to a table below it that a header names. -/
  | implied
  /-- On the way to a value that a dotted key names. -/
  | dotted
  /-- By braces. -/
  | closed
deriving DecidableEq

/-- A TOML value. An array of tables that headers build up is kept apart from an array in
brackets. -/
inductive Value where
  | string (text : String)
  | integer (value : Int)
  | other (kind : OtherKind)
  | array (items : List Value)
  | table (origin : Origin) (entries : List (String × Value))
  | tables (elements : List (List (String × Value)))

/-- The keys of a table and their values, each key once. -/
abbrev Entries := List (String × Value)

namespace Entries

def find? (entries : Entries) (key : String) : Option Value := entries.lookup key

/-- Gives a key a value, in place of the one it has. -/
def put (entries : Entries) (key : String) (value : Value) : Entries :=
  match entries with
  | [] => [(key, value)]
  | entry :: rest =>
    if entry.1 = key then (key, value) :: rest else entry :: put rest key value

/-- Gives a dotted key a value. The key must be new. On the way to it, tables that dotted keys made
may be entered and new ones are made; tables that were implied by headers may be passed, but not
added to; all others are complete. The flag says whether the key may be added right here. -/
def assign : Bool → List String → Value → Entries → Option Entries
  | _, [], _, _ => none
  | isOpen, [key], value, entries =>
    if isOpen && (find? entries key).isNone then some (put entries key value) else none
  | _, key :: path, value, entries =>
    match find? entries key with
    | none => (assign true path value []).map fun sub => put entries key (.table .dotted sub)
    | some (.table .dotted sub) =>
      (assign true path value sub).map fun sub => put entries key (.table .dotted sub)
    | some (.table .implied sub) =>
      (assign false path value sub).map fun sub => put entries key (.table .implied sub)
    | some (.tables elements) =>
      match elements.getLast? with
      | none => none
      | some last =>
        (assign false path value last).map fun last =>
          put entries key (.tables (elements.dropLast ++ [last]))
    | some _ => none

/-- Gives several dotted keys their values, in order. -/
def assignAll (entries : Entries) (settings : List (List String × Value)) : Option Entries :=
  settings.foldlM (fun entries setting => assign true setting.1 setting.2 entries) entries

/-- Changes the value at a path of keys. Tables on the way are entered unless they are closed, an
array of tables is entered at its last element, and missing tables are implied. -/
def updateAt (change : Option Value → Option Value) : List String → Entries → Option Entries
  | [], _ => none
  | [key], entries => (change (find? entries key)).map (put entries key)
  | key :: path, entries =>
    match find? entries key with
    | none => (updateAt change path []).map fun sub => put entries key (.table .implied sub)
    | some (.table .closed _) => none
    | some (.table origin sub) =>
      (updateAt change path sub).map fun sub => put entries key (.table origin sub)
    | some (.tables elements) =>
      match elements.getLast? with
      | none => none
      | some last =>
        (updateAt change path last).map fun last =>
          put entries key (.tables (elements.dropLast ++ [last]))
    | some _ => none

end Entries

end MeshFormation.Toml
