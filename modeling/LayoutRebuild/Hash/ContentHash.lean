import LayoutRebuild.Hash.Xxh3

/-!
# Content hashes

The fingerprint of a file's content: sixteen bytes, written as thirty-two lower-case hexadecimal
digits.
-/

namespace LayoutRebuild

/-- Sixteen bytes that stand for the content of a file. -/
structure ContentHash where
  bytes : List UInt8
  length_eq : bytes.length = 16
deriving DecidableEq

/-- A text that is no content hash. -/
structure MalformedHash where
  text : String
deriving DecidableEq

/-- How a refused text is reported. -/
def MalformedHash.message (e : MalformedHash) : String :=
  s!"invalid content hash '{e.text}': expected 32 hex characters"

namespace ContentHash

/-- Hashes are ordered byte by byte. -/
instance : Ord ContentHash := ⟨fun a b => compare a.bytes b.bytes⟩

/-- The eight bytes of a word, the lowest first. -/
def littleEndian (w : UInt64) : List UInt8 :=
  (List.range 8).map fun i => (w >>> (8 * i).toUInt64).toUInt8

theorem length_littleEndian (w : UInt64) : (littleEndian w).length = 8 := by
  simp [littleEndian]

/-- The hash of a content: its digest, the low half first. -/
def ofContent (content : ByteArray) : ContentHash :=
  let digest := Xxh3.digest content
  ⟨littleEndian digest.low ++ littleEndian digest.high, by simp [length_littleEndian]⟩

/-! ## Hexadecimal text -/

/-- The lower-case digit of a value below sixteen. -/
def hexDigit (n : Nat) : Char := Nat.digitChar n

/-- The value of a hexadecimal digit of either case. -/
def hexValue? (c : Char) : Option UInt8 :=
  let n := c.toNat
  if 48 ≤ n ∧ n ≤ 57 then some (n - 48).toUInt8
  else if 97 ≤ n ∧ n ≤ 102 then some (n - 87).toUInt8
  else if 65 ≤ n ∧ n ≤ 70 then some (n - 55).toUInt8
  else none

/-- The two digits of a byte. -/
def byteDigits (b : UInt8) : List Char := [hexDigit (b.toNat / 16), hexDigit (b.toNat % 16)]

/-- The byte that a pair of characters spells.  A plus sign may stand for the leading zero. -/
def byte? (a b : Char) : Option UInt8 :=
  if a = '+' then hexValue? b
  else
    match hexValue? a, hexValue? b with
    | some x, some y => some (16 * x + y)
    | _, _ => none

/-- The bytes that a sequence of characters spells, two characters a byte. -/
def bytes? : List Char → Option (List UInt8)
  | [] => some []
  | [_] => none
  | a :: b :: rest =>
    match byte? a b, bytes? rest with
    | some x, some xs => some (x :: xs)
    | _, _ => none

/-- The text of a hash. -/
def toText (h : ContentHash) : String := String.ofList (h.bytes.flatMap byteDigits)

/-- The first two bytes only, for messages in which the whole hash would be noise. -/
def brief (h : ContentHash) : String :=
  String.ofList ("ContentHash(".toList ++ (h.bytes.take 2).flatMap byteDigits ++ "..)".toList)

/-- The hash that a text spells.  It has thirty-two characters. -/
def parse (s : String) : Except MalformedHash ContentHash :=
  match bytes? s.toList with
  | some bytes => if h : bytes.length = 16 then .ok ⟨bytes, h⟩ else .error ⟨s⟩
  | none => .error ⟨s⟩

end ContentHash

end LayoutRebuild
