import PatternFinder.Toml.Value

/-! Tables of a TOML document while it is being read. Where a table came from decides which later
lines may add to it. -/
namespace PatternFinder.Toml

/-- A table is opened by its own header, implied by the header of a table inside it, or made by a
key with dots. -/
inductive Origin where
  | header
  | implied
  | dotted
deriving Repr, BEq, DecidableEq

inductive Draft where
  | value (v : Toml)
  | table (origin : Origin) (entries : List (String × Draft))
  | tables (rows : List (List (String × Draft)))

namespace Draft

abbrev Entries := List (String × Draft)

/-- Change what a key holds. -/
def alter (key : String) (change : Option Draft → Option Draft) : Entries → Option Entries
  | [] => (change none).map fun item => [(key, item)]
  | (k, item) :: rest =>
    if k == key then (change (some item)).map fun item => (k, item) :: rest
    else (alter key change rest).map ((k, item) :: ·)

/-- Change the last row, to which the lines that follow belong. -/
def alterLast (change : Entries → Option Entries) : List Entries → Option (List Entries)
  | [] => none
  | [row] => (change row).map ([·])
  | row :: rows => (alterLast change rows).map (row :: ·)

/-- Change the table that a header names; tables on the way to it are implied. -/
def under : List String → (Entries → Option Entries) → Entries → Option Entries
  | [], change => change
  | key :: path, change => alter key fun
    | none => (under path change []).map (.table .implied)
    | some (.table origin entries) => (under path change entries).map (.table origin)
    | some (.tables rows) => (alterLast (under path change) rows).map .tables
    | some (.value _) => none

/-- Put a value under a key with dots. No key with dots adds to a table with a header, and none
puts a value right into a table that a header implied. -/
def insert (value : Toml) : List String → Entries → Option Entries
  | [] => fun _ => none
  | [key] => alter key fun
    | none => some (.value value)
    | some _ => none
  | key :: next :: path => alter key fun
    | none => (insert value (next :: path) []).map (.table .dotted)
    | some (.table .dotted entries) => (insert value (next :: path) entries).map (.table .dotted)
    | some (.table .implied entries) =>
      if path.isEmpty then none else (insert value (next :: path) entries).map (.table .implied)
    | some (.tables rows) =>
      if path.isEmpty then none else (alterLast (insert value (next :: path)) rows).map .tables
    | some (.table .header _) => none
    | some (.value _) => none

/-- A header opens a table that no line has opened. -/
def openTable (path : List String) : Entries → Option Entries :=
  under path.dropLast (alter (path.getLast?.getD "") fun
    | none => some (.table .header [])
    | some (.table .implied entries) => some (.table .header entries)
    | some _ => none)

/-- A header with two brackets adds a row. -/
def openRow (path : List String) : Entries → Option Entries :=
  under path.dropLast (alter (path.getLast?.getD "") fun
    | none => some (.tables [[]])
    | some (.tables rows) => some (.tables (rows ++ [[]]))
    | some _ => none)

mutual

def close : Draft → Toml
  | .value v => v
  | .table _ entries => .table (closeEntries entries)
  | .tables rows => .array (closeRows rows)

def closeEntries : List (String × Draft) → List (String × Toml)
  | [] => []
  | (key, item) :: rest => (key, close item) :: closeEntries rest

def closeRows : List (List (String × Draft)) → List Toml
  | [] => []
  | row :: rows => .table (closeEntries row) :: closeRows rows

end

end Draft

end PatternFinder.Toml
