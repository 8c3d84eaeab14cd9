/-!
# Byte offsets into a text

A text is a list of characters, and every offset into it counts the bytes of its
UTF-8 form. `withOffsets` gives each character the offset of its first byte,
and `slice` cuts out a byte range, which exists exactly when both ends fall between
characters.
-/

namespace ScriptAnalysis.Text

/-- The number of bytes that the characters take in UTF-8. -/
def byteLength (chars : List Char) : Nat :=
  (chars.map Char.utf8Size).foldr (· + ·) 0

@[simp]
theorem byteLength_nil : byteLength [] = 0 := rfl

@[simp]
theorem byteLength_cons (c : Char) (rest : List Char) :
    byteLength (c :: rest) = c.utf8Size + byteLength rest := rfl

@[simp]
theorem byteLength_append (left right : List Char) :
    byteLength (left ++ right) = byteLength left + byteLength right := by
  induction left with
  | nil => simp
  | cons c rest inductionHypothesis => simp [inductionHypothesis, Nat.add_assoc]

/-- Every character beside the offset of its first byte, the first one at `start`. -/
def withOffsets (start : Nat) : List Char → List (Nat × Char)
  | [] => []
  | c :: rest => (start, c) :: withOffsets (start + c.utf8Size) rest

/-- What remains of the characters after `count` bytes, if a character begins or the
text ends there. -/
def dropBytes : Nat → List Char → Option (List Char)
  | 0, chars => some chars
  | _ + 1, [] => none
  | count + 1, c :: rest =>
      if c.utf8Size ≤ count + 1 then dropBytes (count + 1 - c.utf8Size) rest else none

/-- The characters of the first `count` bytes, if a character ends there. -/
def takeBytes : Nat → List Char → Option (List Char)
  | 0, _ => some []
  | _ + 1, [] => none
  | count + 1, c :: rest =>
      if c.utf8Size ≤ count + 1 then
        (takeBytes (count + 1 - c.utf8Size) rest).map (c :: ·)
      else none

/-- The characters from byte `start` up to byte `stop`, if both are boundaries between
characters and in this order. -/
def slice (start stop : Nat) (chars : List Char) : Option (List Char) :=
  if start ≤ stop then (dropBytes start chars).bind (takeBytes (stop - start)) else none

end ScriptAnalysis.Text
