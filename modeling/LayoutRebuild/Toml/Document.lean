import LayoutRebuild.Toml.Number

/-!
# TOML documents

A document is a sequence of lines: blank ones, table headers, and keys with their values.  Each line
adds to the table whose header came last.
-/

namespace LayoutRebuild.Toml

/-! ## Containers -/

/-- The items of an array and its closing bracket. -/
def arrayItems (value : Reader Value) : Nat → Reader (List Value)
  | 0, _ => none
  | fuel + 1, s =>
    match skipLines s with
    | ']' :: rest => some ([], rest)
    | s =>
      match value s with
      | none => none
      | some (item, rest) =>
        match skipLines rest with
        | ',' :: rest => (arrayItems value fuel rest).map fun r => (item :: r.1, r.2)
        | ']' :: rest => some ([item], rest)
        | _ => none

/-- A key, an equals sign and a value. -/
def keyValue (value : Reader Value) (s : List Char) :
    Option (((List String × String) × Value) × List Char) :=
  match key s with
  | none => none
  | some (k, rest) =>
    match rest with
    | '=' :: rest =>
      match value (skipBlank rest) with
      | some (v, rest) => some ((k, v), rest)
      | none => none
    | _ => none

/-- The entries of a table in braces and its closing brace, added to a table. -/
def braceEntries (value : Reader Value) : Nat → Value → Reader Value
  | 0, _, _ => none
  | fuel + 1, table, s =>
    match keyValue value s with
    | none => none
    | some (((path, last), v), rest) =>
      match assign path last v table with
      | none => none
      | some table =>
        match skipBlank rest with
        | ',' :: rest => braceEntries value fuel table rest
        | '\x7d' :: rest => some (table, rest)
        | _ => none

/-- A table in braces, after its opening brace. -/
def braceTable (value : Reader Value) (s : List Char) : Option (Value × List Char) :=
  match skipBlank s with
  | '\x7d' :: rest => some (.table .inline [], rest)
  | s => braceEntries value (s.length + 1) (.table .inline []) s

/-- A value that is nested in less than `depth` further containers. -/
def value : Nat → Reader Value
  | depth + 1, '[' :: rest =>
    (arrayItems (value depth) (rest.length + 1) rest).map fun r => (.array r.1, r.2)
  | depth + 1, '\x7b' :: rest => braceTable (value depth) rest
  | _, '"' :: rest => (anyString ('"' :: rest)).map fun r => (.text r.1, r.2)
  | _, '\'' :: rest => (anyString ('\'' :: rest)).map fun r => (.text r.1, r.2)
  | _, s => word s

/-! ## Lines -/

/-- A document being read: its tables so far, and the path of the last header. -/
structure Draft where
  root : Value
  header : List String

/-- The table whose header came last, changed by a key. -/
def Draft.assign (d : Draft) (path : List String) (last : String) (v : Value) : Option Draft :=
  (alter false d.header (Toml.assign path last v) d.root).map fun root => { d with root := root }

/-- One line that is not blank, and the text after its end. -/
def line (d : Draft) : Reader Draft
  | '[' :: '[' :: rest =>
    match key rest with
    | some ((path, last), ']' :: ']' :: rest) =>
      match lineEnd? rest, appendTable path last d.root with
      | some rest, some root => some (⟨root, path ++ [last]⟩, rest)
      | _, _ => none
    | _ => none
  | '[' :: rest =>
    match key rest with
    | some ((path, last), ']' :: rest) =>
      match lineEnd? rest, openTable path last d.root with
      | some rest, some root => some (⟨root, path ++ [last]⟩, rest)
      | _, _ => none
    | _ => none
  | s =>
    match keyValue (value (nestingLimit - 1)) s with
    | none => none
    | some (((path, last), v), rest) =>
      match lineEnd? rest, d.assign path last v with
      | some rest, some d => some (d, rest)
      | _, _ => none

/-- The lines of a document. -/
def lines : Nat → Draft → List Char → Option Value
  | 0, _, _ => none
  | fuel + 1, d, s =>
    match skipLines s with
    | [] => some d.root
    | '#' :: rest => if rest.all isPlain then some d.root else none
    | s =>
      match line d s with
      | some (d, rest) => lines fuel d rest
      | none => none

/-- The table that a document states.  A byte order mark may stand in front. -/
def document (text : String) : Option Value :=
  let s := match text.toList with
    | '\uFEFF' :: rest => rest
    | s => s
  lines (s.length + 1) ⟨.table .stated [], []⟩ s

end LayoutRebuild.Toml
