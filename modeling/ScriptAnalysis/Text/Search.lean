import ScriptAnalysis.Text.Offsets

/-!
# Searching a text

`find?` is the byte offset of the first place where some characters stand.
-/

namespace ScriptAnalysis.Text

/-- The offset of the first place where `word` stands, counted from `start`. -/
def findFrom (word : List Char) (start : Nat) : List Char → Option Nat
  | [] => if word.isEmpty then some start else none
  | c :: rest =>
      if word.isPrefixOf (c :: rest) then some start
      else findFrom word (start + c.utf8Size) rest

/-- The byte offset of the first place where `word` stands in the text. -/
def find? (word text : String) : Option Nat :=
  findFrom word.toList 0 text.toList

end ScriptAnalysis.Text
