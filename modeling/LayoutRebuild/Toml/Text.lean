/-!
# White space, strings and keys of TOML

A reader takes something from the front of the text and answers it with the rest, or nothing if the
text does not begin with it.
-/

namespace LayoutRebuild.Toml

/-- Takes something from the front of a text. -/
abbrev Reader (α : Type) : Type := List Char → Option (α × List Char)

/-- A space or a tab. -/
def isBlank (c : Char) : Bool := c = ' ' || c = '\t'

/-- A decimal digit. -/
def isDigit (c : Char) : Bool := '0' ≤ c && c ≤ '9'

/-- The value of a hexadecimal digit. -/
def hexDigit? (c : Char) : Option Nat :=
  if '0' ≤ c ∧ c ≤ '9' then some (c.toNat - 48)
  else if 'a' ≤ c ∧ c ≤ 'f' then some (c.toNat - 87)
  else if 'A' ≤ c ∧ c ≤ 'F' then some (c.toNat - 55)
  else none

/-- A character that may stand for itself in a comment or a string: no control character but the
tab. -/
def isPlain (c : Char) : Bool := c = '\t' || (0x20 ≤ c.toNat && c.toNat ≠ 0x7F)

/-- The text after spaces and tabs. -/
def skipBlank (s : List Char) : List Char := s.dropWhile isBlank

/-- The text after a line end. -/
def newline? : List Char → Option (List Char)
  | '\n' :: rest => some rest
  | '\r' :: '\n' :: rest => some rest
  | _ => none

/-- The text after a comment, if one begins here. -/
def skipComment : List Char → List Char
  | '#' :: rest => rest.dropWhile isPlain
  | s => s

/-- The text after the end of a line, before which a comment may stand.  The end of the document
ends a line too. -/
def lineEnd? (s : List Char) : Option (List Char) :=
  match skipComment (skipBlank s) with
  | [] => some []
  | s => newline? s

/-- The text after blanks, comments and line ends.  `fuel` bounds the number of lines. -/
def skipLinesWithin : Nat → List Char → List Char
  | 0, s => s
  | fuel + 1, s =>
    match newline? (skipComment (skipBlank s)) with
    | some rest => skipLinesWithin fuel rest
    | none => skipBlank s

/-- The text after blanks, comments and line ends. -/
def skipLines (s : List Char) : List Char := skipLinesWithin s.length s

/-! ## Strings -/

/-- A character given by exactly `n` hexadecimal digits. -/
def codePoint (n : Nat) : Reader Char := fun s =>
  match (s.take n).mapM hexDigit? with
  | none => none
  | some digits =>
    let value := digits.foldl (fun value digit => 16 * value + digit) 0
    if digits.length = n ∧ value.isValidChar then some (Char.ofNat value, s.drop n) else none

/-- A character given by what follows a backslash. -/
def escape : Reader Char
  | 'b' :: rest => some ('\x08', rest)
  | 'f' :: rest => some ('\x0c', rest)
  | 'n' :: rest => some ('\n', rest)
  | 'r' :: rest => some ('\r', rest)
  | 't' :: rest => some ('\t', rest)
  | '"' :: rest => some ('"', rest)
  | '\\' :: rest => some ('\\', rest)
  | 'u' :: rest => codePoint 4 rest
  | 'U' :: rest => codePoint 8 rest
  | _ => none

/-- The text after blanks and line ends. -/
def skipBlankLines : List Char → List Char
  | '\r' :: '\n' :: rest => skipBlankLines rest
  | c :: rest => if isBlank c || c = '\n' then skipBlankLines rest else c :: rest
  | [] => []

/-- The text after a backslash that ends a line, with everything blank after it. -/
def lineContinuation? (s : List Char) : Option (List Char) :=
  (newline? (skipBlank s)).map skipBlankLines

/-- Puts characters in front of what a reader answers. -/
def prepend (cs : List Char) : Option (List Char × List Char) → Option (List Char × List Char)
  | some (read, rest) => some (cs ++ read, rest)
  | none => none

/-- The rest of a string on one line that ends with `quote`. -/
def lineString (quote : Char) (escapes : Bool) : Nat → Reader (List Char)
  | 0, _ => none
  | _ + 1, [] => none
  | fuel + 1, c :: rest =>
    if c = quote then some ([], rest)
    else if c = '\\' ∧ escapes then
      match escape rest with
      | some (c, rest) => prepend [c] (lineString quote escapes fuel rest)
      | none => none
    else if isPlain c then prepend [c] (lineString quote escapes fuel rest)
    else none

/-- The rest of a string on several lines that ends with three of `quote`.  Up to two more may stand
in front of these. -/
def blockString (quote : Char) (escapes : Bool) : Nat → Reader (List Char)
  | 0, _ => none
  | _ + 1, [] => none
  | fuel + 1, c :: rest =>
    let s := c :: rest
    if c = quote then
      let run := (s.takeWhile (· = quote)).length
      if run < 3 then prepend (s.take run) (blockString quote escapes fuel (s.drop run))
      else if run ≤ 5 then some (s.take (run - 3), s.drop run)
      else none
    else if c = '\\' ∧ escapes then
      match lineContinuation? rest with
      | some rest => blockString quote escapes fuel rest
      | none =>
        match escape rest with
        | some (c, rest) => prepend [c] (blockString quote escapes fuel rest)
        | none => none
    else
      match newline? s with
      | some rest => prepend ['\n'] (blockString quote escapes fuel rest)
      | none => if isPlain c then prepend [c] (blockString quote escapes fuel rest) else none

/-- A string on one line. -/
def shortString : Reader String
  | '"' :: rest =>
    (lineString '"' true (rest.length + 1) rest).map fun r => (String.ofList r.1, r.2)
  | '\'' :: rest =>
    (lineString '\'' false (rest.length + 1) rest).map fun r => (String.ofList r.1, r.2)
  | _ => none

/-- The rest of a string on several lines.  A line end right at its start does not count. -/
def longString (quote : Char) (escapes : Bool) (s : List Char) : Option (String × List Char) :=
  let s := (newline? s).getD s
  (blockString quote escapes (s.length + 1) s).map fun r => (String.ofList r.1, r.2)

/-- A string of any kind. -/
def anyString : Reader String
  | '"' :: '"' :: '"' :: rest => longString '"' true rest
  | '\'' :: '\'' :: '\'' :: rest => longString '\'' false rest
  | s => shortString s

/-! ## Keys -/

/-- A character of a key without quotes. -/
def isKeyChar (c : Char) : Bool :=
  ('a' ≤ c && c ≤ 'z') || ('A' ≤ c && c ≤ 'Z') || isDigit c || c = '-' || c = '_'

/-- One part of a key. -/
def keyPart (s : List Char) : Option (String × List Char) :=
  match shortString s with
  | some r => some r
  | none =>
    match s.takeWhile isKeyChar with
    | [] => none
    | part => some (String.ofList part, s.dropWhile isKeyChar)

/-- The parts of a key, with blanks around them. -/
def keyParts : Nat → Reader (List String)
  | 0, _ => none
  | fuel + 1, s =>
    match keyPart (skipBlank s) with
    | none => none
    | some (part, rest) =>
      match skipBlank rest with
      | '.' :: rest =>
        match keyParts fuel rest with
        | some (parts, rest) => some (part :: parts, rest)
        | none => none
      | rest => some ([part], rest)

/-- The number of parts that a key stays below, and of containers that values are nested in. -/
def nestingLimit : Nat := 80

/-- A key: the path to a table and a key in that table. -/
def key (s : List Char) : Option ((List String × String) × List Char) :=
  match keyParts (s.length + 1) s with
  | none => none
  | some (parts, rest) =>
    if parts.length < nestingLimit then
      match parts.getLast? with
      | some last => some ((parts.dropLast, last), rest)
      | none => none
    else none

end LayoutRebuild.Toml
