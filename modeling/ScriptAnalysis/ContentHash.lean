import ScriptAnalysis.ContentHash.Digest
import ScriptAnalysis.Json.Decode
import ScriptAnalysis.Text.Hexadecimal

/-!
# Content hashes

A `ContentHash` is the version of a text: sixteen bytes that depend on the text alone.
It is written as 32 lowercase hexadecimal digits. Reading takes two characters for
each byte, where a single digit after a plus sign also stands for a byte.
-/

namespace ScriptAnalysis

/-- Sixteen bytes, the most significant one first. -/
structure ContentHash where
  bytes : Vector UInt8 16
  deriving DecidableEq, Repr

/-- A text that is no content hash. -/
structure ContentHashError where
  text : String
  deriving DecidableEq, Repr

namespace ContentHash

/-- The eight bytes of a word, the most significant one first. -/
def wordBytes (value : UInt64) : Vector UInt8 8 :=
  Vector.ofFn fun index => (value >>> UInt64.ofNat (8 * (7 - index.val))).toUInt8

/-- The hash of a byte array. -/
def ofBytes (data : ByteArray) : ContentHash :=
  let value := digest data
  ⟨wordBytes value.high ++ wordBytes value.low⟩

/-- The hash of a text's UTF-8 form. -/
def ofText (text : String) : ContentHash :=
  ofBytes text.toUTF8

/-- A byte as two lowercase digits. -/
def byteDigits (byte : UInt8) : List Char :=
  [(byte.toNat / 16).digitChar, (byte.toNat % 16).digitChar]

/-- The 32 digits of the hash. -/
def hex (hash : ContentHash) : String :=
  String.ofList (hash.bytes.toList.flatMap byteDigits)

/-- A short form for logs: the first four bytes. -/
def summary (hash : ContentHash) : String :=
  "ContentHash(" ++ String.ofList ((hash.bytes.toList.take 4).flatMap byteDigits) ++ "..)"

/-- The byte that two characters stand for: two digits, or a plus sign and a digit. -/
def pairByte (first second : Char) : Option UInt8 :=
  if first = '+' then (Text.hexValue? second).map UInt8.ofNat
  else
    match Text.hexValue? first, Text.hexValue? second with
    | some high, some low => some (UInt8.ofNat (16 * high + low))
    | _, _ => none

/-- The bytes that consecutive pairs of characters stand for. -/
def pairBytes : List Char → Option (List UInt8)
  | [] => some []
  | [_] => none
  | first :: second :: rest =>
      match pairByte first second, pairBytes rest with
      | some byte, some bytes => some (byte :: bytes)
      | _, _ => none

/-- Read a hash: sixteen pairs of characters that each stand for a byte. -/
def parse (text : String) : Except ContentHashError ContentHash :=
  match pairBytes text.toList with
  | none => .error ⟨text⟩
  | some bytes =>
      if h : bytes.toArray.size = 16 then .ok ⟨⟨bytes.toArray, h⟩⟩ else .error ⟨text⟩

end ContentHash

/-- The wording of the error quotes the whole text. -/
def ContentHashError.message (error : ContentHashError) : String :=
  "invalid content hash '" ++ error.text ++ "'"

namespace ContentHash

/-- The hash as JSON. -/
def toJson (hash : ContentHash) : Json :=
  .string hash.hex

/-- Read a hash from JSON. -/
def decode (value : Json) : Except ShapeError ContentHash :=
  match Json.decodeString value with
  | .error error => .error error
  | .ok text => (parse text).mapError fun error => .refused error.message

end ContentHash

end ScriptAnalysis
