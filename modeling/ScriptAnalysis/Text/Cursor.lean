import ScriptAnalysis.Text.Offsets

/-!
# Reading a text from left to right

A `Cursor` is a place in a text: the characters that follow and the number of bytes
before them. A `Scan` is a reader that takes some of the characters or refuses. Every
repetition is bounded by the number of characters that follow.
-/

namespace ScriptAnalysis.Text

/-- A place in a text. -/
structure Cursor where
  rest : List Char
  /-- The number of bytes before the place. -/
  offset : Nat
  deriving DecidableEq, Repr

/-- A byte range of a text. -/
structure Span where
  start : Nat
  stop : Nat
  deriving DecidableEq, Repr

namespace Cursor

/-- The beginning of a text. -/
def ofText (text : String) : Cursor :=
  ⟨text.toList, 0⟩

/-- The first character and the place after it. -/
def next? (cursor : Cursor) : Option (Char × Cursor) :=
  match cursor.rest with
  | [] => none
  | c :: rest => some (c, ⟨rest, cursor.offset + c.utf8Size⟩)

/-- The longest run of characters in the class, and the place after it. -/
def takeWhile (test : Char → Bool) (cursor : Cursor) : List Char × Cursor :=
  let taken := cursor.rest.takeWhile test
  (taken, ⟨cursor.rest.dropWhile test, cursor.offset + byteLength taken⟩)

/-- The place after the longest run of characters in the class. -/
def skipWhile (test : Char → Bool) (cursor : Cursor) : Cursor :=
  (cursor.takeWhile test).2

/-- The place after the given characters, if they follow. -/
def skipChars? : List Char → Cursor → Option Cursor
  | [], cursor => some cursor
  | c :: expected, cursor =>
      match cursor.next? with
      | some (found, after) => if found = c then after.skipChars? expected else none
      | none => none

/-- Whether the given characters follow. -/
def startsWith (expected : List Char) (cursor : Cursor) : Bool :=
  expected.isPrefixOf cursor.rest

/-- Whether the text ends here. -/
def atEnd (cursor : Cursor) : Bool :=
  cursor.rest.isEmpty

end Cursor

/-- A reader that takes characters at a place, or refuses. -/
abbrev Scan (α : Type) := Cursor → Option (α × Cursor)

end ScriptAnalysis.Text
