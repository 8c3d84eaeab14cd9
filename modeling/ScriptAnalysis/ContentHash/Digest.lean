/-!
# The 128-bit XXH3 digest

`digest` computes the seedless 128-bit XXH3 hash of a byte array over 64-bit words. The
algorithm has one branch for each range of lengths: up to 16 bytes, up to 128, up to
240, and longer inputs, which are folded in stripes of 64 bytes.
-/

namespace ScriptAnalysis.ContentHash

/-- A 128-bit value as two words. -/
structure Wide where
  low : UInt64
  high : UInt64
  deriving DecidableEq, Repr

/-- The 192 bytes that the digest mixes into its input. -/
def secret : ByteArray :=
  ⟨#[0xb8, 0xfe, 0x6c, 0x39, 0x23, 0xa4, 0x4b, 0xbe, 0x7c, 0x01, 0x81, 0x2c, 0xf7, 0x21, 0xad, 0x1c,
    0xde, 0xd4, 0x6d, 0xe9, 0x83, 0x90, 0x97, 0xdb, 0x72, 0x40, 0xa4, 0xa4, 0xb7, 0xb3, 0x67, 0x1f,
    0xcb, 0x79, 0xe6, 0x4e, 0xcc, 0xc0, 0xe5, 0x78, 0x82, 0x5a, 0xd0, 0x7d, 0xcc, 0xff, 0x72, 0x21,
    0xb8, 0x08, 0x46, 0x74, 0xf7, 0x43, 0x24, 0x8e, 0xe0, 0x35, 0x90, 0xe6, 0x81, 0x3a, 0x26, 0x4c,
    0x3c, 0x28, 0x52, 0xbb, 0x91, 0xc3, 0x00, 0xcb, 0x88, 0xd0, 0x65, 0x8b, 0x1b, 0x53, 0x2e, 0xa3,
    0x71, 0x64, 0x48, 0x97, 0xa2, 0x0d, 0xf9, 0x4e, 0x38, 0x19, 0xef, 0x46, 0xa9, 0xde, 0xac, 0xd8,
    0xa8, 0xfa, 0x76, 0x3f, 0xe3, 0x9c, 0x34, 0x3f, 0xf9, 0xdc, 0xbb, 0xc7, 0xc7, 0x0b, 0x4f, 0x1d,
    0x8a, 0x51, 0xe0, 0x4b, 0xcd, 0xb4, 0x59, 0x31, 0xc8, 0x9f, 0x7e, 0xc9, 0xd9, 0x78, 0x73, 0x64,
    0xea, 0xc5, 0xac, 0x83, 0x34, 0xd3, 0xeb, 0xc3, 0xc5, 0x81, 0xa0, 0xff, 0xfa, 0x13, 0x63, 0xeb,
    0x17, 0x0d, 0xdd, 0x51, 0xb7, 0xf0, 0xda, 0x49, 0xd3, 0x16, 0x55, 0x26, 0x29, 0xd4, 0x68, 0x9e,
    0x2b, 0x16, 0xbe, 0x58, 0x7d, 0x47, 0xa1, 0xfc, 0x8f, 0xf8, 0xb8, 0xd1, 0x7a, 0xd0, 0x31, 0xce,
    0x45, 0xcb, 0x3a, 0x8f, 0x95, 0x16, 0x04, 0x28, 0xaf, 0xd7, 0xfb, 0xca, 0xbb, 0x4b, 0x40, 0x7e]⟩

def prime32A : UInt64 := 0x9E3779B1
def prime32B : UInt64 := 0x85EBCA77
def prime32C : UInt64 := 0xC2B2AE3D
def prime64A : UInt64 := 0x9E3779B185EBCA87
def prime64B : UInt64 := 0xC2B2AE3D27D4EB4F
def prime64C : UInt64 := 0x165667B19E3779F9
def prime64D : UInt64 := 0x85EBCA77C2B2AE63
def prime64E : UInt64 := 0x27D4EB2F165667C5
def mixA : UInt64 := 0x165667919E3779F9
def mixB : UInt64 := 0x9FB21C651E98DF25

/-- The byte at an index, as a word. -/
def byteAt (data : ByteArray) (index : Nat) : UInt64 :=
  if h : index < data.size then (data[index]).toUInt64 else 0

/-- The four bytes from an index, the first one least. -/
def word32 (data : ByteArray) (index : Nat) : UInt64 :=
  byteAt data index ||| (byteAt data (index + 1) <<< 8) |||
    (byteAt data (index + 2) <<< 16) ||| (byteAt data (index + 3) <<< 24)

/-- The eight bytes from an index, the first one least. -/
def word64 (data : ByteArray) (index : Nat) : UInt64 :=
  word32 data index ||| (word32 data (index + 4) <<< 32)

/-- A word shifted right and added to itself without carry. -/
def shiftMix (value : UInt64) (amount : UInt64) : UInt64 :=
  value ^^^ (value >>> amount)

/-- The final scrambling of short inputs. -/
def avalancheShort (value : UInt64) : UInt64 :=
  shiftMix (shiftMix (shiftMix value 33 * prime64B) 29 * prime64C) 32

/-- The final scrambling of all other inputs. -/
def avalanche (value : UInt64) : UInt64 :=
  shiftMix (shiftMix value 37 * mixA) 32

/-- The full product of two words. -/
def multiply (left right : UInt64) : Wide :=
  let product := left.toNat * right.toNat
  ⟨UInt64.ofNat product, UInt64.ofNat (product / UInt64.size)⟩

/-- Both halves of the full product, added without carry. -/
def foldProduct (left right : UInt64) : UInt64 :=
  let product := multiply left right
  product.low ^^^ product.high

/-- The four low bytes in reverse order. -/
def reverse32 (value : UInt64) : UInt64 :=
  ((value &&& (0xFF : UInt64)) <<< 24) ||| ((value &&& (0xFF00 : UInt64)) <<< 8) |||
    ((value >>> 8) &&& (0xFF00 : UInt64)) ||| ((value >>> 24) &&& (0xFF : UInt64))

/-- All eight bytes in reverse order. -/
def reverse64 (value : UInt64) : UInt64 :=
  (reverse32 value <<< 32) ||| reverse32 (value >>> 32)

/-- The low 32 bits rotated left by 13. -/
def rotate13 (value : UInt64) : UInt64 :=
  ((value <<< 13) &&& (0xFFFFFFFF : UInt64)) ||| (value >>> 19)

/-- The digest of no bytes. -/
def digestEmpty : Wide :=
  ⟨avalancheShort (word64 secret 64 ^^^ word64 secret 72),
    avalancheShort (word64 secret 80 ^^^ word64 secret 88)⟩

/-- The digest of one to three bytes. -/
def digest3 (data : ByteArray) : Wide :=
  let size := data.size
  let low := (byteAt data 0 <<< 16) ||| (byteAt data (size / 2) <<< 24) |||
    byteAt data (size - 1) ||| (UInt64.ofNat size <<< 8)
  let high := rotate13 (reverse32 low)
  ⟨avalancheShort (low ^^^ (word32 secret 0 ^^^ word32 secret 4)),
    avalancheShort (high ^^^ (word32 secret 8 ^^^ word32 secret 12))⟩

/-- The digest of four to eight bytes. -/
def digest8 (data : ByteArray) : Wide :=
  let size := data.size
  let input := word32 data 0 + (word32 data (size - 4) <<< 32)
  let keyed := input ^^^ (word64 secret 16 ^^^ word64 secret 24)
  let product := multiply keyed (prime64A + (UInt64.ofNat size <<< 2))
  let high := product.high + (product.low <<< 1)
  let low := product.low ^^^ (high >>> 3)
  ⟨shiftMix (shiftMix low 35 * mixB) 28, avalanche high⟩

/-- The digest of nine to sixteen bytes. -/
def digest16 (data : ByteArray) : Wide :=
  let size := data.size
  let first := word64 data 0
  let last := word64 data (size - 8)
  let product := multiply (first ^^^ last ^^^ (word64 secret 32 ^^^ word64 secret 40)) prime64A
  let low := product.low + (UInt64.ofNat (size - 1) <<< 54)
  let keyed := last ^^^ (word64 secret 48 ^^^ word64 secret 56)
  let high := product.high + (keyed + (keyed &&& (0xFFFFFFFF : UInt64)) * (prime32B - 1))
  let second := multiply (low ^^^ reverse64 high) prime64B
  ⟨avalanche second.low, avalanche (second.high + high * prime64B)⟩

/-- Sixteen bytes of input mixed with sixteen bytes of the secret. -/
def mix16 (data : ByteArray) (index key : Nat) : UInt64 :=
  foldProduct (word64 data index ^^^ word64 secret key)
    (word64 data (index + 8) ^^^ word64 secret (key + 8))

/-- Two stretches of sixteen bytes mixed into both accumulators. -/
def mix32 (state : Wide) (data : ByteArray) (left right key : Nat) : Wide :=
  ⟨(state.low + mix16 data left key) ^^^ (word64 data right + word64 data (right + 8)),
    (state.high + mix16 data right (key + 16)) ^^^ (word64 data left + word64 data (left + 8))⟩

/-- The digest that the accumulators of a middle-sized input end in. -/
def finishMiddle (state : Wide) (size : Nat) : Wide :=
  let high := state.low * prime64A + state.high * prime64D + UInt64.ofNat size * prime64B
  ⟨avalanche (state.low + state.high), 0 - avalanche high⟩

/-- The digest of 17 to 128 bytes: pairs of stretches from both ends inwards. -/
def digest128 (data : ByteArray) : Wide :=
  let size := data.size
  let rounds := (size - 1) / 32
  let state := (List.range (rounds + 1)).reverse.foldl
    (fun state index => mix32 state data (16 * index) (size - 16 * (index + 1)) (32 * index))
    ⟨UInt64.ofNat size * prime64A, 0⟩
  finishMiddle state size

/-- The digest of 129 to 240 bytes. -/
def digest240 (data : ByteArray) : Wide :=
  let size := data.size
  let start := (List.range 4).foldl
    (fun state index => mix32 state data (32 * index) (32 * index + 16) (32 * index))
    ⟨UInt64.ofNat size * prime64A, 0⟩
  let state := (List.range (size / 32 - 4)).foldl
    (fun state index =>
      mix32 state data (32 * (index + 4)) (32 * (index + 4) + 16) (3 + 32 * index))
    ⟨avalanche start.low, avalanche start.high⟩
  finishMiddle (mix32 state data (size - 16) (size - 32) 103) size

/-- The eight accumulators that long inputs start with. -/
def startLanes : List UInt64 :=
  [prime32C, prime64A, prime64B, prime64C, prime64D, prime32B, prime64E, prime32A]

/-- The neighbour of a lane in its pair. -/
def partner (lane : Nat) : Nat :=
  if lane % 2 = 0 then lane + 1 else lane - 1

/-- A stripe of 64 bytes mixed into the accumulators. -/
def addStripe (lanes : List UInt64) (data : ByteArray) (index key : Nat) : List UInt64 :=
  lanes.zipIdx.map fun (sum, lane) =>
    let keyed := word64 data (index + 8 * lane) ^^^ word64 secret (key + 8 * lane)
    sum + word64 data (index + 8 * partner lane) + (keyed &&& (0xFFFFFFFF : UInt64)) * (keyed >>> 32)

/-- The accumulators scrambled at the end of a block. -/
def scramble (lanes : List UInt64) : List UInt64 :=
  lanes.zipIdx.map fun (sum, lane) =>
    (shiftMix sum 47 ^^^ word64 secret (128 + 8 * lane)) * prime32A

/-- The given number of stripes from an index. -/
def addStripes (lanes : List UInt64) (data : ByteArray) (index count : Nat) : List UInt64 :=
  (List.range count).foldl
    (fun lanes stripe => addStripe lanes data (index + 64 * stripe) (8 * stripe)) lanes

/-- Eight accumulators folded into one word, in pairs. -/
def mergePairs (key : Nat) (start : UInt64) : List UInt64 → UInt64
  | first :: second :: rest =>
      mergePairs (key + 16)
        (start + foldProduct (first ^^^ word64 secret key) (second ^^^ word64 secret (key + 8))) rest
  | _ => start

/-- The digest of more than 240 bytes: blocks of sixteen stripes, the stripes that
remain, and the last 64 bytes once more. -/
def digestLong (data : ByteArray) : Wide :=
  let size := data.size
  let blocks := (size - 1) / 1024
  let whole := (List.range blocks).foldl
    (fun lanes block => scramble (addStripes lanes data (1024 * block) 16)) startLanes
  let stripes := addStripes whole data (1024 * blocks) ((size - 1 - 1024 * blocks) / 64)
  let lanes := addStripe stripes data (size - 64) 121
  ⟨avalanche (mergePairs 11 (UInt64.ofNat size * prime64A) lanes),
    avalanche (mergePairs 117 (~~~(UInt64.ofNat size * prime64B)) lanes)⟩

/-- The digest of any bytes. -/
def digest (data : ByteArray) : Wide :=
  if data.size = 0 then digestEmpty
  else if data.size ≤ 3 then digest3 data
  else if data.size ≤ 8 then digest8 data
  else if data.size ≤ 16 then digest16 data
  else if data.size ≤ 128 then digest128 data
  else if data.size ≤ 240 then digest240 data
  else digestLong data

end ScriptAnalysis.ContentHash
