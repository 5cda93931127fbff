/-!
# The 128-bit XXH3 digest

XXH3 with seed 0 and its standard secret.  Inputs fall into five length classes, each with its own
mixing scheme; beyond 240 bytes the input is consumed in stripes of 64 bytes by eight lanes.  All
arithmetic is modulo 2⁶⁴ unless a full product is asked for.
-/

namespace LayoutRebuild.Xxh3

/-- A digest as its low and its high half. -/
structure Digest where
  low : UInt64
  high : UInt64
deriving DecidableEq

/-- The standard secret. -/
def secret : ByteArray := ⟨#[
  0xb8, 0xfe, 0x6c, 0x39, 0x23, 0xa4, 0x4b, 0xbe, 0x7c, 0x01, 0x81, 0x2c, 0xf7, 0x21, 0xad, 0x1c,
  0xde, 0xd4, 0x6d, 0xe9, 0x83, 0x90, 0x97, 0xdb, 0x72, 0x40, 0xa4, 0xa4, 0xb7, 0xb3, 0x67, 0x1f,
  0xcb, 0x79, 0xe6, 0x4e, 0xcc, 0xc0, 0xe5, 0x78, 0x82, 0x5a, 0xd0, 0x7d, 0xcc, 0xff, 0x72, 0x21,
  0xb8, 0x08, 0x46, 0x74, 0xf7, 0x43, 0x24, 0x8e, 0xe0, 0x35, 0x90, 0xe6, 0x81, 0x3a, 0x26, 0x4c,
  0x3c, 0x28, 0x52, 0xbb, 0x91, 0xc3, 0x00, 0xcb, 0x88, 0xd0, 0x65, 0x8b, 0x1b, 0x53, 0x2e, 0xa3,
  0x71, 0x64, 0x48, 0x97, 0xa2, 0x0d, 0xf9, 0x4e, 0x38, 0x19, 0xef, 0x46, 0xa9, 0xde, 0xac, 0xd8,
  0xa8, 0xfa, 0x76, 0x3f, 0xe3, 0x9c, 0x34, 0x3f, 0xf9, 0xdc, 0xbb, 0xc7, 0xc7, 0x0b, 0x4f, 0x1d,
  0x8a, 0x51, 0xe0, 0x4b, 0xcd, 0xb4, 0x59, 0x31, 0xc8, 0x9f, 0x7e, 0xc9, 0xd9, 0x78, 0x73, 0x64,
  0xea, 0xc5, 0xac, 0x83, 0x34, 0xd3, 0xeb, 0xc3, 0xc5, 0x81, 0xa0, 0xff, 0xfa, 0x13, 0x63, 0xeb,
  0x17, 0x0d, 0xdd, 0x51, 0xb7, 0xf0, 0xda, 0x49, 0xd3, 0x16, 0x55, 0x26, 0x29, 0xd4, 0x68, 0x9e,
  0x2b, 0x16, 0xbe, 0x58, 0x7d, 0x47, 0xa1, 0xfc, 0x8f, 0xf8, 0xb8, 0xd1, 0x7a, 0xd0, 0x31, 0xce,
  0x45, 0xcb, 0x3a, 0x8f, 0x95, 0x16, 0x04, 0x28, 0xaf, 0xd7, 0xfb, 0xca, 0xbb, 0x4b, 0x40, 0x7e]⟩

/-! ## The multipliers -/

def prime32a : UInt64 := 0x9E3779B1
def prime32b : UInt64 := 0x85EBCA77
def prime32c : UInt64 := 0xC2B2AE3D
def prime64a : UInt64 := 0x9E3779B185EBCA87
def prime64b : UInt64 := 0xC2B2AE3D27D4EB4F
def prime64c : UInt64 := 0x165667B19E3779F9
def prime64d : UInt64 := 0x85EBCA77C2B2AE63
def prime64e : UInt64 := 0x27D4EB2F165667C5
def mixer : UInt64 := 0x165667919E3779F9
def shortMixer : UInt64 := 0x9FB21C651E98DF25

/-! ## Words and products -/

/-- The byte at a position, and 0 beyond the end. -/
def byteAt (b : ByteArray) (i : Nat) : UInt64 :=
  if h : i < b.size then b[i].toUInt64 else 0

/-- Four bytes as a little-endian word. -/
def word32 (b : ByteArray) (i : Nat) : UInt64 :=
  byteAt b i ||| byteAt b (i + 1) <<< 8 ||| byteAt b (i + 2) <<< 16 ||| byteAt b (i + 3) <<< 24

/-- Eight bytes as a little-endian word. -/
def word64 (b : ByteArray) (i : Nat) : UInt64 := word32 b i ||| word32 b (i + 4) <<< 32

/-- The low half of a word. -/
def half (w : UInt64) : UInt64 := w &&& 0xFFFFFFFF

/-- The bytes of a 32-bit word in the opposite order. -/
def swap32 (w : UInt64) : UInt64 :=
  let byte (n : UInt64) : UInt64 := w >>> n &&& 0xFF
  byte 0 <<< 24 ||| byte 8 <<< 16 ||| byte 16 <<< 8 ||| byte 24

/-- The bytes of a word in the opposite order. -/
def swap64 (w : UInt64) : UInt64 := swap32 (half w) <<< 32 ||| swap32 (w >>> 32)

/-- A 32-bit word rotated to the left. -/
def rotate32 (w n : UInt64) : UInt64 := half (w <<< n ||| w >>> (32 - n))

/-- The full product of two words. -/
def multiply (a b : UInt64) : Digest :=
  let product := a.toNat * b.toNat
  ⟨product.toUInt64, (product >>> 64).toUInt64⟩

/-- The two halves of the full product, added without carry. -/
def fold (a b : UInt64) : UInt64 :=
  let product := multiply a b
  product.low ^^^ product.high

/-- Spreads every bit of a word over the whole word. -/
def avalanche (h : UInt64) : UInt64 :=
  let h := (h ^^^ h >>> 37) * mixer
  h ^^^ h >>> 32

/-- The stronger spreading that the shortest inputs need. -/
def strongAvalanche (h : UInt64) : UInt64 :=
  let h := (h ^^^ h >>> 33) * prime64b
  let h := (h ^^^ h >>> 29) * prime64c
  h ^^^ h >>> 32

/-! ## Inputs of up to 16 bytes -/

/-- The digest of the empty input. -/
def emptyDigest : Digest :=
  ⟨strongAvalanche (word64 secret 64 ^^^ word64 secret 72),
    strongAvalanche (word64 secret 80 ^^^ word64 secret 88)⟩

/-- Inputs of 1 to 3 bytes. -/
def upTo3 (b : ByteArray) : Digest :=
  let n := b.size
  let low := byteAt b 0 <<< 16 ||| byteAt b (n / 2) <<< 24 ||| byteAt b (n - 1) |||
    n.toUInt64 <<< 8
  let high := rotate32 (swap32 low) 13
  ⟨strongAvalanche (low ^^^ (word32 secret 0 ^^^ word32 secret 4)),
    strongAvalanche (high ^^^ (word32 secret 8 ^^^ word32 secret 12))⟩

/-- Inputs of 4 to 8 bytes. -/
def upTo8 (b : ByteArray) : Digest :=
  let n := b.size
  let keyed := (word32 b 0 + word32 b (n - 4) <<< 32) ^^^ (word64 secret 16 ^^^ word64 secret 24)
  let m := multiply keyed (prime64a + n.toUInt64 <<< 2)
  let high := m.high + m.low <<< 1
  let low := m.low ^^^ high >>> 3
  let low := (low ^^^ low >>> 35) * shortMixer
  ⟨low ^^^ low >>> 28, avalanche high⟩

/-- Inputs of 9 to 16 bytes. -/
def upTo16 (b : ByteArray) : Digest :=
  let n := b.size
  let last := word64 b (n - 8)
  let m := multiply (word64 b 0 ^^^ last ^^^ (word64 secret 32 ^^^ word64 secret 40)) prime64a
  let low := m.low + (n.toUInt64 - 1) <<< 54
  let keyed := last ^^^ (word64 secret 48 ^^^ word64 secret 56)
  let high := m.high + keyed + half keyed * (prime32b - 1)
  let h := multiply (low ^^^ swap64 high) prime64b
  ⟨avalanche h.low, avalanche (h.high + high * prime64b)⟩

/-! ## Inputs of 17 to 240 bytes -/

/-- Sixteen bytes of input mixed with sixteen bytes of the secret. -/
def mix16 (b : ByteArray) (i key : Nat) : UInt64 :=
  fold (word64 b i ^^^ word64 secret key) (word64 b (i + 8) ^^^ word64 secret (key + 8))

/-- Two pieces of sixteen bytes, each mixed into one half and added to the other. -/
def mix32 (b : ByteArray) (acc : Digest) (i j key : Nat) : Digest :=
  ⟨(acc.low + mix16 b i key) ^^^ (word64 b j + word64 b (j + 8)),
    (acc.high + mix16 b j (key + 16)) ^^^ (word64 b i + word64 b (i + 8))⟩

/-- The end of both schemes for inputs of middle length. -/
def finishMiddle (n : UInt64) (acc : Digest) : Digest :=
  ⟨avalanche (acc.low + acc.high),
    0 - avalanche (acc.low * prime64a + acc.high * prime64d + n * prime64b)⟩

/-- Inputs of 17 to 128 bytes: pieces from both ends, the inner ones first. -/
def upTo128 (b : ByteArray) : Digest :=
  let n := b.size
  let rounds := (n - 1) / 32
  finishMiddle n.toUInt64 <|
    (List.range (rounds + 1)).reverse.foldl
      (fun acc r => mix32 b acc (16 * r) (n - 16 * (r + 1)) (32 * r))
      ⟨n.toUInt64 * prime64a, 0⟩

/-- Inputs of 129 to 240 bytes: pieces in order, with a spreading after the first four. -/
def upTo240 (b : ByteArray) : Digest :=
  let n := b.size
  let first := (List.range 4).foldl
    (fun acc r => mix32 b acc (32 * r) (32 * r + 16) (32 * r))
    ⟨n.toUInt64 * prime64a, 0⟩
  let middle := (List.range (n / 32 - 4)).foldl
    (fun acc r => mix32 b acc (32 * r + 128) (32 * r + 144) (32 * r + 3))
    ⟨avalanche first.low, avalanche first.high⟩
  finishMiddle n.toUInt64 (mix32 b middle (n - 16) (n - 32) 103)

/-! ## Longer inputs -/

/-- The eight lanes that consume a long input. -/
abbrev Lanes : Type := Vector UInt64 8

/-- The lanes before the first stripe. -/
def startLanes : Lanes :=
  #v[prime32c, prime64a, prime64b, prime64c, prime64d, prime32b, prime64e, prime32a]

/-- One stripe of 64 bytes: a lane gains the product of the halves of its keyed word, and the plain
word of its neighbour. -/
def stripe (b : ByteArray) (i key : Nat) (acc : Lanes) : Lanes :=
  Vector.ofFn fun lane =>
    let keyed : UInt64 := word64 b (i + 8 * lane) ^^^ word64 secret (key + 8 * lane)
    let neighbour := if lane.val % 2 = 0 then lane.val + 1 else lane.val - 1
    acc[lane] + word64 b (i + 8 * neighbour) + half keyed * (keyed >>> 32)

/-- Consecutive stripes, each under a secret shifted by eight bytes. -/
def stripes (b : ByteArray) (i count : Nat) (acc : Lanes) : Lanes :=
  (List.range count).foldl (fun acc s => stripe b (i + 64 * s) (8 * s) acc) acc

/-- The stirring of the lanes after each block of sixteen stripes. -/
def scramble (acc : Lanes) : Lanes :=
  Vector.ofFn fun lane =>
    (acc[lane] ^^^ acc[lane] >>> 47 ^^^ word64 secret (128 + 8 * lane)) * prime32a

/-- One word from the eight lanes. -/
def merge (acc : Lanes) (key : Nat) (start : UInt64) : UInt64 :=
  avalanche <| start +
    fold (acc[0] ^^^ word64 secret key) (acc[1] ^^^ word64 secret (key + 8)) +
    fold (acc[2] ^^^ word64 secret (key + 16)) (acc[3] ^^^ word64 secret (key + 24)) +
    fold (acc[4] ^^^ word64 secret (key + 32)) (acc[5] ^^^ word64 secret (key + 40)) +
    fold (acc[6] ^^^ word64 secret (key + 48)) (acc[7] ^^^ word64 secret (key + 56))

/-- Inputs of more than 240 bytes.  The last 64 bytes form a stripe of their own. -/
def long (b : ByteArray) : Digest :=
  let n := b.size
  let blocks := (n - 1) / 1024
  let acc := (List.range blocks).foldl
    (fun acc k => scramble (stripes b (1024 * k) 16 acc)) startLanes
  let acc := stripes b (1024 * blocks) ((n - 1 - 1024 * blocks) / 64) acc
  let acc := stripe b (n - 64) 121 acc
  ⟨merge acc 11 (n.toUInt64 * prime64a), merge acc 117 (~~~(n.toUInt64 * prime64b))⟩

/-- The digest of a sequence of bytes. -/
def digest (b : ByteArray) : Digest :=
  if b.size = 0 then emptyDigest
  else if b.size ≤ 3 then upTo3 b
  else if b.size ≤ 8 then upTo8 b
  else if b.size ≤ 16 then upTo16 b
  else if b.size ≤ 128 then upTo128 b
  else if b.size ≤ 240 then upTo240 b
  else long b

end LayoutRebuild.Xxh3
