/-!
# TOML values and how tables are put together

A document states its tables piece by piece, and may not state the same table twice.  So every table
remembers how it came about: which ways of adding to it are still open depends on that and on
nothing else.
-/

namespace LayoutRebuild.Toml

/-- How a table came about. -/
inductive Origin where
  /-- By a header of its own. -/
  | stated
  /-- By a header of a table below it. -/
  | implied
  /-- By a dotted key. -/
  | dotted
  /-- In braces.  Such a table is complete. -/
  | inline
deriving DecidableEq, Inhabited

/-- A value.  Numbers and points in time are kept as they are written, since only their being well
formed matters. -/
inductive Value where
  | text (value : String)
  | boolean (value : Bool)
  | integer (value : Int)
  | float (literal : String)
  | moment (literal : String)
  | array (items : List Value)
  | table (origin : Origin) (entries : List (String × Value))
  /-- The tables that share a header in double brackets, the latest first. -/
  | tables (items : List Value)
deriving Inhabited

/-- The value at a key. -/
def find? (key : String) : List (String × Value) → Option Value
  | [] => none
  | (k, v) :: rest => if k = key then some v else find? key rest

/-- The entries with a value at a key. -/
def put (key : String) (value : Value) : List (String × Value) → List (String × Value)
  | [] => [(key, value)]
  | (k, v) :: rest => if k = key then (k, value) :: rest else (k, v) :: put key value rest

/-- Changes the table at the end of a path, making the tables on the way if they are missing.
`dotted` tells whether the path is part of a dotted key; such a path does not pass through a table
that has a header. -/
def alter (dotted : Bool) (path : List String) (change : Value → Option Value) (v : Value) :
    Option Value :=
  match path with
  | [] => change v
  | key :: path =>
    match v with
    | .table origin entries =>
      match (find? key entries).getD (.table (if dotted then .dotted else .implied) []) with
      | .tables (latest :: earlier) =>
        match alter dotted path change latest with
        | some latest => some (.table origin (put key (.tables (latest :: earlier)) entries))
        | none => none
      | .table .inline _ => none
      | .table below children =>
        if dotted ∧ below = .stated then none
        else
          match alter dotted path change (.table below children) with
          | some child => some (.table origin (put key child entries))
          | none => none
      | _ => none
    | _ => none

/-- Sets a key, dotted or not, in a table.  A dotted key adds to tables that came about by dotted
keys only, and no key is set twice. -/
def assign (path : List String) (key : String) (value : Value) (table : Value) : Option Value :=
  alter true path (fun
    | .table origin entries =>
      if (origin = .dotted ↔ path ≠ []) ∧ (find? key entries).isNone then
        some (.table origin (put key value entries))
      else none
    | _ => none) table

/-- States the table that a header names. -/
def openTable (path : List String) (key : String) (root : Value) : Option Value :=
  alter false path (fun
    | .table origin entries =>
      match find? key entries with
      | none => some (.table origin (put key (.table .stated []) entries))
      | some (.table .implied children) =>
        some (.table origin (put key (.table .stated children) entries))
      | some _ => none
    | _ => none) root

/-- Adds a table to those that share a header. -/
def appendTable (path : List String) (key : String) (root : Value) : Option Value :=
  alter false path (fun
    | .table origin entries =>
      match find? key entries with
      | none => some (.table origin (put key (.tables [.table .stated []]) entries))
      | some (.tables items) =>
        some (.table origin (put key (.tables (.table .stated [] :: items)) entries))
      | some _ => none
    | _ => none) root

end LayoutRebuild.Toml
