import LayoutRebuild.Hash.ContentHash
import LayoutRebuild.Json.Token

/-!
# Typed readers over JSON tokens

A reader takes a value of one type from the front of the tokens.  The shape that is expected decides
at every token, so a document is refused at its first fault in document order, be it a wrong
character, a wrong type or a missing field.

A record may be written as an object, whose unknown members are skipped and whose known members may
not be repeated, or as an array of its fields in the order of their declaration.
-/

namespace LayoutRebuild.Json

/-- Why a document is refused. -/
inductive Fault where
  | missingField (name : String)
  | duplicateField (name : String)
  | badHash (hash : MalformedHash)
  /-- The text is no JSON, or a value has another type than the one expected. -/
  | malformed
deriving DecidableEq, Inhabited

/-- The reason that is shown for a fault.  Only faults of content are told apart. -/
def Fault.message : Fault → String
  | missingField name => s!"missing field `{name}`"
  | duplicateField name => s!"duplicate field `{name}`"
  | badHash hash => hash.message
  | malformed => "<json error>"

/-- Takes a value from the front of the tokens. -/
abbrev Reader (α : Type) : Type := List Token → Except Fault (α × List Token)

namespace Reader

/-- Applies a function to what is read. -/
def map {α β : Type} (f : α → β) (r : Reader α) : Reader β := fun ts =>
  match r ts with
  | .ok (a, rest) => .ok (f a, rest)
  | .error e => .error e

/-! ## Plain values -/

/-- A string. -/
def text : Reader String
  | .text (some s) :: rest => .ok (s, rest)
  | _ => .error .malformed

/-- A truth value. -/
def boolean : Reader Bool
  | .boolean b :: rest => .ok (b, rest)
  | _ => .error .malformed

/-- The value of a sequence of digits. -/
def digitsValue (digits : List Char) : Nat :=
  digits.foldl (fun n c => 10 * n + (c.toNat - 48)) 0

/-- A number written with digits only and below a limit. -/
def natural (limit : Nat) : Reader Nat
  | .number literal :: rest =>
    if literal.all isDigit ∧ digitsValue literal < limit then .ok (digitsValue literal, rest)
    else .error .malformed
  | _ => .error .malformed

/-- A content hash. -/
def hash : Reader ContentHash := fun ts =>
  match text ts with
  | .error e => .error e
  | .ok (s, rest) =>
    match ContentHash.parse s with
    | .ok h => .ok (h, rest)
    | .error e => .error (.badHash e)

/-- A value, or `null` for none. -/
def optional {α : Type} (r : Reader α) : Reader (Option α)
  | .null :: rest => .ok (none, rest)
  | ts => r.map some ts

/-- The case that a name stands for, out of a list of cases. -/
def caseNamed {α : Type} (cases : List (String × α)) (name : String) : Except Fault α :=
  match cases.find? (·.1 == name) with
  | some (_, a) => .ok a
  | none => .error .malformed

/-- One of several named cases, written as its name or as an object that sends its name to `null`.
-/
def oneOf {α : Type} (cases : List (String × α)) : Reader α
  | .text (some name) :: rest =>
    match caseNamed cases name with
    | .ok a => .ok (a, rest)
    | .error e => .error e
  | .openBrace :: .text (some name) :: .colon :: .null :: .closeBrace :: rest =>
    match caseNamed cases name with
    | .ok a => .ok (a, rest)
    | .error e => .error e
  | _ => .error .malformed

/-! ## Values of no interest -/

/-- What a skipped value may go on with.  The flags of the open containers, the innermost first,
tell objects from arrays. -/
inductive Expected where
  | value
  /-- A value, or the end of an array that has just been opened. -/
  | firstItem
  | key
  /-- A key, or the end of an object that has just been opened. -/
  | firstKey
  | colon
  /-- A comma, or the end of the innermost container. -/
  | separator
deriving DecidableEq, Inhabited

/-- Skips what is left of a well-formed value. -/
def skipRest : List Bool → Expected → List Token → Except Fault (List Token)
  | _, _, [] => .error .malformed
  | inside, expected, t :: rest =>
    let closed (left : List Bool) : Except Fault (List Token) :=
      if left.isEmpty then .ok rest else skipRest left .separator rest
    match expected, t with
    | .firstItem, .closeBracket => closed inside.tail
    | .firstKey, .closeBrace => closed inside.tail
    | .value, .openBracket | .firstItem, .openBracket => skipRest (false :: inside) .firstItem rest
    | .value, .openBrace | .firstItem, .openBrace => skipRest (true :: inside) .firstKey rest
    | .value, .null | .firstItem, .null
    | .value, .boolean _ | .firstItem, .boolean _
    | .value, .number _ | .firstItem, .number _
    | .value, .text _ | .firstItem, .text _ => closed inside
    | .key, .text _ | .firstKey, .text _ => skipRest inside .colon rest
    | .colon, .colon => skipRest inside .value rest
    | .separator, .comma => skipRest inside (if inside.head?.getD false then .key else .value) rest
    | .separator, .closeBracket =>
      if inside.head? = some false then closed inside.tail else .error .malformed
    | .separator, .closeBrace =>
      if inside.head? = some true then closed inside.tail else .error .malformed
    | _, _ => .error .malformed

/-- Skips one well-formed value of any depth. -/
def skip (ts : List Token) : Except Fault (List Token) := skipRest [] .value ts

/-! ## Containers -/

/-- The items of an array from an item on. -/
def items {α : Type} (r : Reader α) : Nat → Reader (List α)
  | 0, _ => .error .malformed
  | fuel + 1, ts =>
    match r ts with
    | .error e => .error e
    | .ok (a, .comma :: rest) => (items r fuel).map (a :: ·) rest
    | .ok (a, .closeBracket :: rest) => .ok ([a], rest)
    | .ok _ => .error .malformed

/-- An array. -/
def array {α : Type} (r : Reader α) : Reader (List α)
  | .openBracket :: .closeBracket :: rest => .ok ([], rest)
  | .openBracket :: rest => items r rest.length rest
  | _ => .error .malformed

/-- The members of an object from a key on.  Each is handed to `member`, which reads from the colon
on and folds the member into what has been read. -/
def members {σ : Type} (member : σ → String → Reader σ) : Nat → σ → Reader σ
  | 0, _, _ => .error .malformed
  | fuel + 1, acc, .text (some key) :: ts =>
    match member acc key ts with
    | .error e => .error e
    | .ok (acc, .comma :: rest) => members member fuel acc rest
    | .ok (acc, .closeBrace :: rest) => .ok (acc, rest)
    | .ok _ => .error .malformed
  | _ + 1, _, _ => .error .malformed

/-- An object, folded member by member. -/
def object {σ : Type} (member : σ → String → Reader σ) (start : σ) : Reader σ
  | .openBrace :: .closeBrace :: rest => .ok (start, rest)
  | .openBrace :: rest => members member rest.length start rest
  | _ => .error .malformed

/-- A colon and a value after it. -/
def afterColon {α : Type} (r : Reader α) : Reader α
  | .colon :: rest => r rest
  | _ => .error .malformed

/-- The members of an object in order, repeated keys included. -/
def pairs {α : Type} (r : Reader α) : Reader (List (String × α)) :=
  (object (fun acc key => (afterColon r).map fun a => (key, a) :: acc) []).map List.reverse

/-! ## Records -/

/-- One field of a record that is being read into `σ`. -/
structure Field (σ : Type) where
  name : String
  /-- Whether the field has been read already. -/
  isSet : σ → Bool
  /-- Reads the value of the field and stores it. -/
  read : σ → Reader σ

/-- A member of a record written as an object. -/
def fieldMember {σ : Type} (fields : List (Field σ)) (acc : σ) (key : String) : Reader σ :=
  fun ts =>
  match fields.find? (·.name == key) with
  | some field =>
    if field.isSet acc then .error (.duplicateField key) else afterColon (field.read acc) ts
  | none =>
    match ts with
    | .colon :: rest => (skip rest).map fun rest => (acc, rest)
    | _ => .error .malformed

/-- The fields of a record written as an array, from a separator on. -/
def laterPlaces {σ : Type} : List (Field σ) → σ → Reader σ
  | _, acc, .closeBracket :: rest => .ok (acc, rest)
  | field :: fields, acc, .comma :: ts =>
    match field.read acc ts with
    | .error e => .error e
    | .ok (acc, rest) => laterPlaces fields acc rest
  | _, _, _ => .error .malformed

/-- The fields of a record written as an array. -/
def places {σ : Type} : List (Field σ) → σ → Reader σ
  | _, acc, .closeBracket :: rest => .ok (acc, rest)
  | field :: fields, acc, ts =>
    match field.read acc ts with
    | .error e => .error e
    | .ok (acc, rest) => laterPlaces fields acc rest
  | [], _, _ => .error .malformed

/-- A record.  `complete` builds it from the fields read, or names the first that is missing. -/
def record {σ α : Type} (fields : List (Field σ)) (start : σ) (complete : σ → Except String α) :
    Reader α
  | .openBracket :: rest =>
    match places fields start rest with
    | .error e => .error e
    | .ok (acc, rest) =>
      match complete acc with
      | .ok a => .ok (a, rest)
      | .error _ => .error .malformed
  | ts =>
    match object (fieldMember fields) start ts with
    | .error e => .error e
    | .ok (acc, rest) =>
      match complete acc with
      | .ok a => .ok (a, rest)
      | .error name => .error (.missingField name)

/-- The value of a field that has no default. -/
def required {α : Type} (name : String) : Option α → Except String α
  | some a => .ok a
  | none => .error name

/-- A document that holds one value and nothing after it. -/
def document {α : Type} (r : Reader α) (text : String) : Except Fault α :=
  match r (tokens text) with
  | .error e => .error e
  | .ok (a, []) => .ok a
  | .ok _ => .error .malformed

end Reader

end LayoutRebuild.Json
