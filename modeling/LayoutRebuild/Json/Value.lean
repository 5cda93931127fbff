/-!
# JSON values and their two written forms

What is written is built as a value first.  The compact form has no white space at all; the indented
form puts every item on its own line, two spaces deeper than its container, and leaves an empty
container as a pair of brackets.
-/

namespace LayoutRebuild.Json

/-- A value.  The members of an object keep their order. -/
inductive Value where
  | null
  | boolean (value : Bool)
  | number (value : Nat)
  | text (value : String)
  | array (items : List Value)
  | object (members : List (String × Value))
deriving Inhabited

/-- A line break and the indentation of the given depth. -/
def lineBreak (depth : Nat) : List Char := '\n' :: List.replicate (2 * depth) ' '

/-- A character inside a string. -/
def escape (c : Char) : List Char :=
  if c = '"' then ['\\', '"']
  else if c = '\\' then ['\\', '\\']
  else if c = '\x08' then ['\\', 'b']
  else if c = '\x0c' then ['\\', 'f']
  else if c = '\n' then ['\\', 'n']
  else if c = '\r' then ['\\', 'r']
  else if c = '\t' then ['\\', 't']
  else if c.toNat < 0x20 then
    ['\\', 'u', '0', '0', Nat.digitChar (c.toNat / 16), Nat.digitChar (c.toNat % 16)]
  else [c]

/-- A string in quotes. -/
def quote (s : String) : List Char := '"' :: s.toList.flatMap escape ++ ['"']

/-- The written forms differ in what stands around items only. -/
structure Layout where
  /-- What stands before an item, or before the bracket that ends the container. -/
  gap : Nat → List Char
  /-- What stands between a key and its value. -/
  colon : List Char

/-- No white space. -/
def Layout.compact : Layout := ⟨fun _ => [], [':']⟩

/-- One item a line. -/
def Layout.indented : Layout := ⟨lineBreak, [':', ' ']⟩

mutual

/-- The written form of a value whose container stands at the given depth. -/
def Value.write (layout : Layout) (depth : Nat) : Value → List Char
  | .null => "null".toList
  | .boolean true => "true".toList
  | .boolean false => "false".toList
  | .number n => Nat.toDigits 10 n
  | .text s => quote s
  | .array [] => ['[', ']']
  | .array (item :: items) =>
    '[' :: layout.gap (depth + 1) ++ item.write layout (depth + 1) ++
      Value.writeItems layout (depth + 1) items ++ layout.gap depth ++ [']']
  | .object [] => ['\x7b', '\x7d']
  | .object ((key, value) :: members) =>
    '\x7b' :: layout.gap (depth + 1) ++ quote key ++ layout.colon ++
      value.write layout (depth + 1) ++
      Value.writeMembers layout (depth + 1) members ++ layout.gap depth ++ ['\x7d']

/-- The items after the first. -/
def Value.writeItems (layout : Layout) (depth : Nat) : List Value → List Char
  | [] => []
  | item :: items =>
    ',' :: layout.gap depth ++ item.write layout depth ++ Value.writeItems layout depth items

/-- The members after the first. -/
def Value.writeMembers (layout : Layout) (depth : Nat) : List (String × Value) → List Char
  | [] => []
  | (key, value) :: members =>
    ',' :: layout.gap depth ++ quote key ++ layout.colon ++ value.write layout depth ++
      Value.writeMembers layout depth members

end

/-- The form without white space. -/
def Value.compact (v : Value) : String := String.ofList (v.write .compact 0)

/-- The form with one item a line. -/
def Value.indented (v : Value) : String := String.ofList (v.write .indented 0)

end LayoutRebuild.Json
